import Directory.Mode
import Directory.OperationKind
import Directory.Referral.Outcome
import Directory.Referral.Walk

namespace Directory

/-! # Referral policy

The rules that turn the delegations at and above a name into an outcome.  A
delegation above the name always counts; one at the name itself counts unless the
settings treat it as data for the operation at hand. -/

/-- The operations for which a delegation at the name itself is data. -/
structure ReferralPolicy where
  targetReferralAsData : List OperationKind := []
deriving DecidableEq, Repr

/-- Where the targets of a delegation know `name`: the steps of the name below the
delegation, above each target's base. -/
def Delegation.redirects (delegation : Delegation) (name : Dn) : List RedirectTarget :=
  let unresolved := (name.relativeTo? delegation.point).getD []
  delegation.targets.map fun target => ⟨target.location, Dn.below unresolved target.base⟩

/-- The outcome at a delegation for a caller who does not manage delegations. -/
def Delegation.outcome (delegation : Delegation) (mode : ReferralMode) (name : Dn) : Outcome :=
  match mode with
  | .ignore => .partialResult
  | .throw | .manageDsaIt => .redirect (delegation.redirects name)

/-- The decision from three facts: whether the entry exists, the nearest delegation
above it, and the delegation it is itself. -/
def Outcome.decide (isPresent : Bool) (above itself : Option Delegation) (mode : ReferralMode)
    (name : Dn) : Outcome :=
  if mode.managesDsaIt then (if isPresent then .proceed else .notFound)
  else
    match above with
    | some delegation => delegation.outcome mode name
    | none =>
      if isPresent then
        match itself with
        | some delegation => delegation.outcome mode name
        | none => .proceed
      else .notFound

namespace ReferralPolicy

def honorsTargetReferral (policy : ReferralPolicy) (kind : OperationKind) : Bool :=
  !policy.targetReferralAsData.contains kind

/-- The delegation that an entry is, if it is one. -/
def delegationAt? (dn : Dn) (stored? : Option Entry) : Option Delegation :=
  (stored?.filter Entry.isReferral).map (Delegation.ofEntry dn)

/-- The outcome of an operation on `name` other than adding it. -/
def classify (policy : ReferralPolicy) (kind : OperationKind) (mode : ReferralMode) (name : Dn)
    (target? : Option Entry) (walk : AncestorWalk) : Outcome :=
  let itself := if policy.honorsTargetReferral kind then delegationAt? name target? else none
  .decide target?.isSome walk.delegation? itself mode name

/-- The outcome of adding `name`.  Its parent stands for the entry that must exist,
and a delegation at the parent lies above the new entry, so it always counts. -/
def classifyAdd (mode : ReferralMode) (name parent : Dn) (parent? : Option Entry)
    (walk : AncestorWalk) : Outcome :=
  .decide parent?.isSome walk.delegation? (delegationAt? parent parent?) mode name

/-- The outcome of moving an entry under a superior.  A superior that is delegated, or
lies in a delegated tree, belongs to other servers in every mode. -/
def classifyDestination (superior? : Option Entry) (walk : AncestorWalk) : Outcome :=
  if walk.isDelegated || superior?.any Entry.isReferral then .affectsMultipleNamingContexts
  else if superior?.isNone then .notFound
  else .proceed

end ReferralPolicy

end Directory
