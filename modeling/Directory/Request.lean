import Directory.Entry.Modification
import Directory.Filter.Basic
import Directory.Mode
import Directory.OperationKind

namespace Directory

/-! # Requests and responses -/

/-- How far below its base a search looks. -/
inductive SearchScope where
  | base
  | oneLevel
  | subtree
deriving DecidableEq, Repr

inductive Request where
  /-- Keeps a new entry under its own name. -/
  | add (entry : Entry)
  | modify (dn : Dn) (changes : List Modification)
  | delete (dn : Dn)
  /-- Gives an entry another superior, another naming step, or both.  `deleteOld` asks
  to take the old naming value out of the entry. -/
  | move (dn : Dn) (superior? : Option Dn) (rdn? : Option Rdn) (deleteOld : Bool)
  | search (base : Dn) (scope : SearchScope) (filter : Filter)
  | compare (dn : Dn) (attr value : Text)
  | lookup (dn : Dn)
  | exists (dn : Dn)

namespace Request

def kind : Request → OperationKind
  | add _ => .add
  | modify _ _ => .modify
  | delete _ => .delete
  | move _ _ _ _ => .move
  | search _ _ _ => .search
  | compare _ _ _ => .compare
  | lookup _ => .lookup
  | .exists _ => .exists

/-- The name that the request addresses. -/
def target : Request → Dn
  | add entry => entry.dn
  | modify dn _ | delete dn | move dn _ _ _ | search dn _ _ | compare dn _ _ | lookup dn => dn
  | .exists dn => dn

end Request

/-- A request on its way, with who makes it and how delegations are to be treated. -/
structure Context where
  request : Request
  mode : ReferralMode
  /-- The name of the caller; none for an anonymous one. -/
  principal? : Option Dn

/-- A delegation that a search met, with the URLs at which it continues. -/
structure SearchReference where
  dn : Dn
  urls : List Text
deriving DecidableEq

structure SearchResult where
  /-- The matching entries, superiors first. -/
  entries : List Entry
  references : List SearchReference
  /-- Whether delegated trees were left out. -/
  isPartial : Bool
deriving DecidableEq

def SearchResult.empty : SearchResult := ⟨[], [], false⟩

inductive Response where
  /-- A write was carried out. -/
  | done
  | entry (entry : Entry)
  | exists (found : Bool)
  | compared (agrees : Bool)
  | found (result : SearchResult)
deriving DecidableEq

end Directory
