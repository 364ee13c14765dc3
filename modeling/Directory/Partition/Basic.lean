import Directory.Partition.Store
import Directory.Refusal

namespace Directory

/-! # Partitions

A partition owns the tree under its suffix.  A write is first checked against the
store and then carried out as a whole: `Partition.admits` says whether it may be,
and `Partition.effect` what the store is afterwards. -/

structure Partition where
  id : Text
  /-- The name of the top of the tree that the partition owns. -/
  suffix : Dn
  store : Store
deriving DecidableEq

/-- The changes a partition can make to its entries. -/
inductive Partition.Write where
  /-- Keeps a new entry. -/
  | create (entry : Entry)
  /-- Puts an entry in the place of the one with its name. -/
  | update (entry : Entry)
  /-- Takes away an entry with nothing below it. -/
  | delete (dn : Dn)
  /-- Moves the tree under a name; the given entry becomes its top. -/
  | relocate (source : Dn) (entry : Entry)
deriving DecidableEq

namespace Partition

def empty (id : Text) (suffix : Dn) : Partition := ⟨id, suffix, .empty⟩

def checkOwned (partition : Partition) (dn : Dn) : Except Error Unit :=
  refuseIf (!partition.suffix.isAncestorOrSelfOf dn) (.storageFailure
    (dn.text ++ " is outside partition " ++ partition.id ++ " (" ++ partition.suffix.text ++ ")"))

/-- Every entry but the one at the suffix needs its superior. -/
def checkParent (partition : Partition) (dn : Dn) : Except Error Unit :=
  if dn == partition.suffix then .ok ()
  else
    match dn.parent? with
    | none => .error (.noSuchObject dn.text)
    | some parent => refuseIf (!partition.store.holds parent) (.noSuchObject parent.text)

/-- Whether a write may be carried out. -/
def admits (partition : Partition) : Write → Except Error Unit
  | .create entry => do
    partition.checkOwned entry.dn
    refuseIf (partition.store.holds entry.dn) (.alreadyExists entry.dn.text)
    partition.checkParent entry.dn
  | .update entry => do
    partition.checkOwned entry.dn
    refuseIf (!partition.store.holds entry.dn) (.noSuchObject entry.dn.text)
  | .delete dn => do
    partition.checkOwned dn
    refuseIf (!partition.store.holds dn) (.noSuchObject dn.text)
    refuseIf (partition.store.hasChildren dn) (.notAllowedOnNonLeaf dn.text)
  | .relocate source entry => do
    partition.checkOwned source
    partition.checkOwned entry.dn
    refuseIf (source.isAncestorOf entry.dn)
      (.unwillingToPerform ("cannot move " ++ source.text ++ " below itself"))
    refuseIf (!partition.store.holds source) (.noSuchObject source.text)
    refuseIf (entry.dn.storageKey != source.storageKey && partition.store.holds entry.dn)
      (.alreadyExists entry.dn.text)
    partition.checkParent entry.dn

/-- What becomes of one entry when the tree it lies in moves. -/
def relocated (source : Dn) (replacement : Entry) (entry : Entry) : Entry :=
  if entry.dn == source then replacement
  else
    match entry.dn.rebase? source replacement.dn with
    | some dn => { entry with dn }
    | none => entry

/-- The store after an admitted write. -/
def effect (partition : Partition) : Write → Store
  | .create entry | .update entry => partition.store.put entry
  | .delete dn => partition.store.erase dn.storageKey
  | .relocate source entry =>
    let moved := (partition.store.subtree source).map (relocated source entry)
    moved.foldl Store.put (partition.store.filter fun key _ => !Store.isUnder source key)

/-- Carries out a write, unless it is refused. -/
def perform (partition : Partition) (write : Write) : Except Error Unit × Partition :=
  match partition.admits write with
  | .ok () => (.ok (), { partition with store := partition.effect write })
  | .error refusal => (.error refusal, partition)

/-- Carries out writes in turn; a refused one is passed over. -/
def performAll (partition : Partition) (writes : List Write) : Partition :=
  writes.foldl (fun current write => (current.perform write).2) partition

@[simp] theorem suffix_perform (partition : Partition) (write : Write) :
    (partition.perform write).2.suffix = partition.suffix := by
  unfold perform; split <;> rfl

@[simp] theorem id_perform (partition : Partition) (write : Write) :
    (partition.perform write).2.id = partition.id := by
  unfold perform; split <;> rfl

theorem perform_of_admits {partition : Partition} {write : Write}
    (admitted : partition.admits write = .ok ()) :
    partition.perform write = (.ok (), { partition with store := partition.effect write }) := by
  simp [perform, admitted]

theorem perform_of_refused {partition : Partition} {write : Write} {refusal : Error}
    (refused : partition.admits write = .error refusal) :
    partition.perform write = (.error refusal, partition) := by
  simp [perform, refused]

end Partition

end Directory
