import Directory.Agent.Basic

namespace Directory.Agent

/-! # Searching

A search goes through the entries in its scope, superiors first.  What lies below a
delegation stays hidden, and the delegation itself is reported in its place; a caller
who manages delegations sees everything. -/

/-- Where a delegation that a search met continues. -/
def reference (entry : Entry) : SearchReference :=
  ⟨entry.dn, ((Delegation.ofEntry entry.dn entry).redirects entry.dn).map RedirectTarget.url⟩

/-- The result with a delegation reported in front, in the way of the mode. -/
def reporting (mode : ReferralMode) (entry : Entry) (result : SearchResult) : SearchResult :=
  match mode with
  | .ignore => { result with isPartial := true }
  | .throw | .manageDsaIt => { result with references := reference entry :: result.references }

/-- Goes through entries in order.  `points` are the delegations met so far. -/
def gather (schema : Schema) (filter : Filter) (mode : ReferralMode) (base : Dn)
    (points : List Dn) : List Entry → SearchResult
  | [] => .empty
  | entry :: rest =>
    if points.any fun point => point.isAncestorOf entry.dn then
      gather schema filter mode base points rest
    else if !(entry.dn == base) && entry.isReferral && !mode.managesDsaIt then
      reporting mode entry (gather schema filter mode base (entry.dn :: points) rest)
    else
      let result := gather schema filter mode base points rest
      if filter.holds schema entry then { result with entries := entry :: result.entries }
      else result

/-- The stored entries in scope, superiors first. -/
def candidates (store : Store) (base : Dn) : SearchScope → List Entry
  | .base => (store.find? base).toList
  | .oneLevel => store.children base
  | .subtree => store.subtree base

/-- Searches a store.  Below a base that is a delegation read as data nothing is seen. -/
def searchStore (schema : Schema) (store : Store) (base : Dn) (scope : SearchScope)
    (filter : Filter) (mode : ReferralMode) : SearchResult :=
  let inScope := candidates store base scope
  match (store.find? base).filter fun entry => entry.isReferral && !mode.managesDsaIt with
  | none => gather schema filter mode base [] inScope
  | some entry =>
    let result := gather schema filter mode base []
      (inScope.filter fun candidate => candidate.dn == base)
    if scope = .base then result else reporting mode entry result

def search (agent : Agent) (contexts : NamingContexts) (base : Dn) (scope : SearchScope)
    (filter : Filter) (mode : ReferralMode) : Except Error SearchResult := do
  let base ← agent.schema.normalizeDn base
  let partition ← covering contexts base
  (agent.classify .search mode partition base).result base
  .ok (searchStore agent.schema partition.store base scope filter mode)

end Directory.Agent
