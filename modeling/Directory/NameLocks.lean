import Directory.Name.Basic
import Directory.KeyTable

namespace Directory

/-! # Locks on names

Writers lock the names they touch, in ascending order of the compared form, so that
two writers cannot wait for each other.  A name is in the table from the first attempt
to lock it until the table is pruned while nobody holds it. -/

structure NameLocks where
  /-- The names in the table, and whether somebody holds them. -/
  table : KeyTable Bool
deriving DecidableEq

/-- The names that one writer holds. -/
structure NameGuard where
  names : List Text
deriving DecidableEq

namespace NameLocks

def empty : NameLocks := ⟨.empty⟩

def size (locks : NameLocks) : Nat := locks.table.size

def isHeld (locks : NameLocks) (name : Text) : Bool := (locks.table.get? name).getD false

/-- Distinct names in ascending order of their compared forms. -/
def inOrder (names : List Dn) : List Text :=
  KeyTable.distinctTexts (names.map Dn.normalized)

/-- Gives names back; they stay in the table. -/
def unlock (locks : NameLocks) (names : List Text) : NameLocks :=
  ⟨names.foldl (fun table name => table.insert name false) locks.table⟩

/-- Locks names in turn, after those already `taken`.  At one that somebody else holds
the attempt ends and what was taken is given back. -/
def lockAll (locks : NameLocks) (taken : List Text) : List Text → Option NameGuard × NameLocks
  | [] => (some ⟨taken⟩, locks)
  | name :: rest =>
    if locks.isHeld name then (none, locks.unlock taken)
    else lockAll ⟨locks.table.insert name true⟩ (taken ++ [name]) rest

def acquire (locks : NameLocks) (names : List Dn) : Option NameGuard × NameLocks :=
  locks.lockAll [] (inOrder names)

/-- Drops the names that nobody holds. -/
def prune (locks : NameLocks) : NameLocks := ⟨locks.table.filter fun _ held => held⟩

/-- Gives back what a guard holds. -/
def release (locks : NameLocks) (guarded : NameGuard) : NameLocks :=
  (locks.unlock guarded.names).prune

end NameLocks

end Directory
