import Directory.Url

namespace Directory

/-! # What becomes of an operation

Before an operation touches an entry it is decided whether it goes on here, ends, or
continues on other servers. -/

/-- A server and the name it knows the operation's entry by. -/
structure RedirectTarget where
  location : Text
  remainder : Dn
deriving DecidableEq

def RedirectTarget.url (target : RedirectTarget) : Text :=
  target.location ++ '/' :: escapeDn target.remainder.text

inductive Outcome where
  /-- The operation goes on. -/
  | proceed
  /-- There is no entry with the name. -/
  | notFound
  /-- The name is held elsewhere and the caller does not want to be referred. -/
  | partialResult
  /-- The operation continues at the targets. -/
  | redirect (targets : List RedirectTarget)
  /-- The operation would reach into the tree of another server. -/
  | affectsMultipleNamingContexts
deriving DecidableEq

namespace Outcome

def label : Outcome → Text
  | proceed => "proceed"
  | notFound => "not_found"
  | partialResult => "partial_result"
  | redirect _ => "redirect"
  | affectsMultipleNamingContexts => "affects_multiple_naming_contexts"

def isProceed (outcome : Outcome) : Bool := outcome == proceed

/-- The answer to the caller of an operation on `name`. -/
def result (outcome : Outcome) (name : Dn) : Except Error Unit :=
  match outcome with
  | proceed => .ok ()
  | notFound => .error (.noSuchObject name.text)
  | partialResult => .error .partialResult
  | redirect targets => .error (.referral (targets.map RedirectTarget.url))
  | affectsMultipleNamingContexts => .error (.affectsMultipleDsas name.text)

theorem result_eq_ok_iff {outcome : Outcome} {name : Dn} :
    outcome.result name = .ok () ↔ outcome = proceed := by
  cases outcome <;> simp [result]

end Outcome

end Directory
