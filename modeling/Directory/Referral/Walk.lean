import Directory.Partition.Basic

namespace Directory

/-! # Delegations above a name

Walking from a name towards the suffix of its partition finds the nearest entry that
hands its tree over to other servers. -/

/-- A tree that other servers hold, and where. -/
structure Delegation where
  /-- The name of the delegating entry, as it was reached. -/
  point : Dn
  targets : List DelegationTarget
deriving DecidableEq

def Delegation.ofEntry (point : Dn) (entry : Entry) : Delegation := ⟨point, entry.delegationTargets⟩

/-- An ancestor that was looked at, and its entry if there is one. -/
structure AncestorStep where
  dn : Dn
  stored? : Option Entry
deriving DecidableEq

structure AncestorWalk where
  /-- The ancestors looked at, nearest first. -/
  steps : List AncestorStep
  /-- The nearest delegation, at which the walk ends. -/
  delegation? : Option Delegation
deriving DecidableEq

namespace AncestorWalk

def empty : AncestorWalk := ⟨[], none⟩

def isDelegated (walk : AncestorWalk) : Bool := walk.delegation?.isSome

/-- The entry directly above the name. -/
def parent? (walk : AncestorWalk) : Option Entry := walk.steps.head?.bind AncestorStep.stored?

/-- Looks at names in turn until one is a delegation. -/
def along (store : Store) : List Dn → AncestorWalk
  | [] => empty
  | dn :: rest =>
    match store.find? dn with
    | some entry =>
      if entry.isReferral then ⟨[⟨dn, some entry⟩], some (.ofEntry dn entry)⟩
      else
        let further := along store rest
        { further with steps := ⟨dn, some entry⟩ :: further.steps }
    | none =>
      let further := along store rest
      { further with steps := ⟨dn, none⟩ :: further.steps }

/-- The walk from the parent of a name up to the suffix.  A name at the suffix, or
not below it, has nothing to walk. -/
def upTo (name suffix : Dn) (store : Store) : AncestorWalk :=
  if suffix.isAncestorOf name then
    along store (name.ancestors.takeWhile fun ancestor => suffix.length ≤ ancestor.length)
  else empty

end AncestorWalk

/-- The walk above a name in the partition that covers it. -/
def Partition.walk (partition : Partition) (name : Dn) : AncestorWalk :=
  .upTo name partition.suffix partition.store

end Directory
