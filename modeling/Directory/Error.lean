import Directory.Text.Quoted

namespace Directory

/-! # Causes of refusals

Why an operation is refused.  Every cause has the text that is shown for it and a
numeric result code of the directory protocol; some of them tell the client that a
name is held elsewhere. -/

inductive Error where
  /-- A name or URL that is not well formed. -/
  | invalidName (reason : Text)
  /-- An entry that does not fit its object classes. -/
  | schemaViolation (reason : Text)
  | invalidAttributeSyntax (attr value : Text)
  | undefinedAttributeType (name : Text)
  | noSuchObject (dn : Text)
  | alreadyExists (dn : Text)
  | notAllowedOnNonLeaf (dn : Text)
  | noSuchAttribute (dn attr : Text)
  | attributeOrValueExists (attr value : Text)
  /-- A delegation was met and the caller asked not to be referred. -/
  | partialResult
  /-- A delegation was met; the operation continues at one of the URLs. -/
  | referral (urls : List Text)
  | affectsMultipleDsas (dn : Text)
  | insufficientAccessRights (reason : Text)
  | unwillingToPerform (reason : Text)
  | storageFailure (reason : Text)
  | configuration (reason : Text)
deriving DecidableEq, Repr

namespace Error

def message : Error → Text
  | invalidName reason => "Invalid DN syntax: " ++ reason
  | schemaViolation reason => "Schema violation: " ++ reason
  | invalidAttributeSyntax attr value =>
    "Invalid syntax for attribute " ++ attr ++ ": " ++ Text.quoted value
  | undefinedAttributeType name => "Undefined attribute type: " ++ name
  | noSuchObject dn => "No such object: " ++ dn
  | alreadyExists dn => "Entry already exists: " ++ dn
  | notAllowedOnNonLeaf dn => "Not allowed on non-leaf entry: " ++ dn
  | noSuchAttribute dn attr => "No such attribute " ++ attr ++ " in " ++ dn
  | attributeOrValueExists attr value =>
    "Attribute or value exists: " ++ attr ++ "=" ++ value
  | partialResult => "Partial result: part of the name is delegated to another server"
  | referral urls => "Referral: " ++ Text.joinWith ' ' urls
  | affectsMultipleDsas dn => "Operation affects multiple naming contexts: " ++ dn
  | insufficientAccessRights reason => "Insufficient access rights: " ++ reason
  | unwillingToPerform reason => "Unwilling to perform: " ++ reason
  | storageFailure reason => "Storage failure: " ++ reason
  | configuration reason => "Configuration error: " ++ reason

/-- The result code of the directory protocol. -/
def resultCode : Error → Nat
  | invalidName _ => 34
  | schemaViolation _ => 65
  | invalidAttributeSyntax _ _ => 21
  | undefinedAttributeType _ => 17
  | noSuchObject _ => 32
  | alreadyExists _ => 68
  | notAllowedOnNonLeaf _ => 66
  | noSuchAttribute _ _ => 16
  | attributeOrValueExists _ _ => 20
  | partialResult => 9
  | referral _ => 10
  | affectsMultipleDsas _ => 71
  | insufficientAccessRights _ => 50
  | unwillingToPerform _ => 53
  | storageFailure _ => 1
  | configuration _ => 80

/-- Whether the refusal speaks of a delegation and not of a fault. -/
def isReferralOutcome : Error → Bool
  | partialResult | referral _ | affectsMultipleDsas _ => true
  | _ => false

end Error

end Directory
