import Directory.Name.Rdn

namespace Directory

open Text

/-! # Distinguished names

A name lists its steps from the leaf to the root of the tree, so an ancestor is
an end of the list.  `Dn.path` is the view by which names are compared: two names
are the same when their paths are, and one lies above another when its path is an
end of the other's. -/

structure Dn where
  /-- The steps, leaf first. -/
  rdns : List Rdn
deriving DecidableEq

namespace Dn

/-- The name of the top of the tree. -/
def root : Dn := ⟨[]⟩

/-- The steps in the form by which they are compared, leaf first. -/
def path (dn : Dn) : List (Text × Text) :=
  dn.rdns.map Rdn.key

instance : BEq Dn := ⟨fun left right => left.path == right.path⟩

theorem beq_iff_path {left right : Dn} : (left == right) = true ↔ left.path = right.path := by
  show (left.path == right.path) = true ↔ _
  exact beq_iff_eq

def length (dn : Dn) : Nat := dn.rdns.length

def isRoot (dn : Dn) : Bool := dn.rdns.isEmpty

/-- The step that names the entry below its superior. -/
def rdn? (dn : Dn) : Option Rdn := dn.rdns.head?

def parent? : Dn → Option Dn
  | ⟨[]⟩ => none
  | ⟨_ :: above⟩ => some ⟨above⟩

def child (dn : Dn) (rdn : Rdn) : Dn := ⟨rdn :: dn.rdns⟩

/-- The ancestor or self with the given number of steps; the name itself where it
is no longer than that. -/
def top (dn : Dn) (depth : Nat) : Dn := ⟨dn.rdns.drop (dn.length - depth)⟩

def isAncestorOrSelfOf (above below : Dn) : Bool :=
  above.path.isSuffixOf below.path

def isAncestorOf (above below : Dn) : Bool :=
  above.length < below.length && above.isAncestorOrSelfOf below

/-- The steps of a name below one of its ancestors. -/
def relativeTo? (dn above : Dn) : Option (List Rdn) :=
  if above.isAncestorOrSelfOf dn then some (dn.rdns.take (dn.length - above.length)) else none

/-- A name below `base` with the given steps, leaf first. -/
def below (steps : List Rdn) (base : Dn) : Dn := ⟨steps ++ base.rdns⟩

/-- The name with the ancestor `source` exchanged for `target`. -/
def rebase? (dn source target : Dn) : Option Dn :=
  (dn.relativeTo? source).map fun steps => below steps target

/-- The names strictly above, from the parent up to the name of one step; the root
is not among them. -/
def ancestors : Dn → List Dn
  | ⟨[]⟩ => []
  | ⟨_ :: above⟩ => go above
where
  go : List Rdn → List Dn
    | [] => []
    | rdn :: above => ⟨rdn :: above⟩ :: go above

def text (dn : Dn) : Text := joinWith ',' (dn.rdns.map Rdn.text)

/-- The name in the form by which it is compared. -/
def normalized (dn : Dn) : Text := joinWith ',' (dn.rdns.map Rdn.normalized)

/-- A text that orders names by the tree: from the root down, every step in its
compared form and closed by a comma, so that the keys of a subtree are the keys
that start with the key of its top. -/
def storageKey (dn : Dn) : Text :=
  dn.rdns.reverse.flatMap fun rdn => rdn.normalized ++ [',']

/-- Reads a name.  Blank text is the root; otherwise commas separate the steps. -/
def parse (text : Text) : Except Error Dn :=
  if text.trim.isEmpty then .ok root
  else do
    let rdns ← (splitUnescaped ',' text).mapM Rdn.parse
    .ok ⟨rdns⟩

@[simp] theorem length_path (dn : Dn) : dn.path.length = dn.length := by
  simp [path, length]

theorem path_child (dn : Dn) (rdn : Rdn) : (dn.child rdn).path = rdn.key :: dn.path := rfl

theorem path_below (steps : List Rdn) (base : Dn) :
    (below steps base).path = steps.map Rdn.key ++ base.path := by
  simp [below, path]

theorem path_top (dn : Dn) (depth : Nat) :
    (dn.top depth).path = dn.path.drop (dn.length - depth) := by
  simp [top, path, List.map_drop]

theorem isAncestorOrSelfOf_iff {above dn : Dn} :
    above.isAncestorOrSelfOf dn = true ↔ above.path <:+ dn.path := by
  simp [isAncestorOrSelfOf]

theorem isAncestorOrSelfOf_refl (dn : Dn) : dn.isAncestorOrSelfOf dn = true :=
  isAncestorOrSelfOf_iff.mpr List.suffix_rfl

theorem isAncestorOrSelfOf_trans {top middle bottom : Dn}
    (upper : top.isAncestorOrSelfOf middle = true)
    (lower : middle.isAncestorOrSelfOf bottom = true) :
    top.isAncestorOrSelfOf bottom = true :=
  isAncestorOrSelfOf_iff.mpr
    ((isAncestorOrSelfOf_iff.mp upper).trans (isAncestorOrSelfOf_iff.mp lower))

end Dn

end Directory
