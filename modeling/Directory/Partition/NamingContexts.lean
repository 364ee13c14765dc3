import Directory.Partition.Basic
import Directory.Text.Digits

namespace Directory

/-! # Naming contexts

The partitions of a server side by side.  No suffix lies at, above or below another,
so at most one partition covers a name. -/

structure NamingContexts where
  /-- The partitions in the order of their registration. -/
  partitions : List Partition
deriving DecidableEq

/-- How much of a name exists: the number of steps of its deepest existing ancestor or
self, counted from the root, and the partition that covers the name. -/
structure Superior where
  /-- Zero where not even the entry at the suffix exists. -/
  depth : Nat
  partition : Partition

def Superior.describe (superior : Superior) : Text :=
  "Superior \x7b matched: " ++ Text.natDigits superior.depth ++ ", partition: " ++
    Text.quoted superior.partition.id ++ " \x7d"

namespace NamingContexts

def empty : NamingContexts := ⟨[]⟩

/-- Whether one of two trees holds the other. -/
def overlap (left right : Dn) : Bool :=
  left.isAncestorOrSelfOf right || right.isAncestorOrSelfOf left

/-- What keeps a partition out, the registered partitions taken in order. -/
def conflict? (contexts : NamingContexts) (partition : Partition) : Option Error :=
  if partition.suffix.isRoot then
    some (.configuration ("partition " ++ partition.id ++ " cannot own the root name"))
  else
    contexts.partitions.findSome? fun other =>
      if other.id == partition.id then
        some (.configuration ("duplicate partition id " ++ partition.id))
      else if overlap other.suffix partition.suffix then
        some (.configuration
          ("suffix " ++ partition.suffix.text ++ " of partition " ++ partition.id ++ " overlaps " ++
            other.suffix.text ++ " of partition " ++ other.id))
      else none

/-- Adds a partition at the end, unless something keeps it out. -/
def register (contexts : NamingContexts) (partition : Partition) :
    Except Error Unit × NamingContexts :=
  match contexts.conflict? partition with
  | some conflict => (.error conflict, contexts)
  | none => (.ok (), ⟨contexts.partitions ++ [partition]⟩)

/-- Registers partitions in turn; one that is kept out is passed over. -/
def registerAll (contexts : NamingContexts) (partitions : List Partition) : NamingContexts :=
  partitions.foldl (fun current partition => (current.register partition).2) contexts

/-- The partition that covers a name. -/
def resolve? (contexts : NamingContexts) (dn : Dn) : Option Partition :=
  contexts.partitions.find? fun partition => partition.suffix.isAncestorOrSelfOf dn

def partition? (contexts : NamingContexts) (id : Text) : Option Partition :=
  contexts.partitions.find? fun partition => partition.id == id

def suffixes (contexts : NamingContexts) : List Dn := contexts.partitions.map Partition.suffix

/-- The depths from the name's own down to that of the suffix. -/
def depthsDown (shallowest deepest : Nat) : List Nat :=
  ((List.range (deepest + 1)).drop shallowest).reverse

/-- The deepest existing ancestor or self of a name that a partition covers. -/
def existingSuperior? (contexts : NamingContexts) (dn : Dn) : Option Superior :=
  (contexts.resolve? dn).map fun partition =>
    let depth? := (depthsDown partition.suffix.length dn.length).find? fun depth =>
      partition.store.holds (dn.top depth)
    ⟨depth?.getD 0, partition⟩

/-- Carries out a write on the partition with the given identifier. -/
def perform (contexts : NamingContexts) (id : Text) (write : Partition.Write) :
    Except Error Unit × NamingContexts :=
  match contexts.partition? id with
  | none => (.error (.storageFailure ("no partition " ++ id)), contexts)
  | some partition =>
    let (answer, changed) := partition.perform write
    (answer, ⟨contexts.partitions.map fun other => if other.id == id then changed else other⟩)

/-- The number of entries in all partitions. -/
def entryCount (contexts : NamingContexts) : Nat :=
  (contexts.partitions.flatMap fun partition => partition.store.keys).length

theorem mem_of_resolve? {contexts : NamingContexts} {dn : Dn} {partition : Partition}
    (found : contexts.resolve? dn = some partition) :
    partition ∈ contexts.partitions ∧ partition.suffix.isAncestorOrSelfOf dn = true :=
  ⟨List.mem_of_find?_eq_some found,
    List.find?_some (p := fun other : Partition => other.suffix.isAncestorOrSelfOf dn) found⟩

end NamingContexts

end Directory
