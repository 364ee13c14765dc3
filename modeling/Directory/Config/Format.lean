import Directory.Config.Basic
import Directory.Entry.Format
import Directory.Json.Reader

namespace Directory

/-! # Settings as JSON

Every record can be read from JSON and written with all fields filled in. -/

def ReferralMode.choices : List (Text × ReferralMode) :=
  ReferralMode.all.map fun mode => (mode.text, mode)

def OperationKind.choices : List (Text × OperationKind) :=
  OperationKind.all.map fun kind => (kind.text, kind)

def MatchingRule.text : MatchingRule → Text
  | caseIgnore => "case_ignore"
  | caseExact => "case_exact"
  | integer => "integer"
  | boolean => "boolean"
  | distinguishedName => "distinguished_name"

def MatchingRule.choices : List (Text × MatchingRule) :=
  [caseIgnore, caseExact, integer, boolean, distinguishedName].map fun rule => (rule.text, rule)

def AttributeUsage.text : AttributeUsage → Text
  | userApplications => "user_applications"
  | directoryOperation => "directory_operation"

def AttributeUsage.choices : List (Text × AttributeUsage) :=
  [userApplications, directoryOperation].map fun usage => (usage.text, usage)

def ObjectClassKind.text : ObjectClassKind → Text
  | abstract => "abstract"
  | structural => "structural"
  | auxiliary => "auxiliary"

def ObjectClassKind.choices : List (Text × ObjectClassKind) :=
  [abstract, structural, auxiliary].map fun kind => (kind.text, kind)

def OperationKind.ofJson? (value : Json) : Option OperationKind := value.choice? choices

def AttributeType.ofJson? (value : Json) : Option AttributeType := do
  let fields ← value.record? ["oid", "names", "syntax", "equality", "single_value", "usage"]
  some {
    oid := ← fields.required "oid" Json.text?
    names := ← fields.required "names" readTexts
    syntaxOid := ← fields.required "syntax" Json.text?
    equality := ← fields.optional "equality" (Json.choice? MatchingRule.choices) .caseIgnore
    singleValue := ← fields.optional "single_value" Json.bool? false
    usage := ← fields.optional "usage" (Json.choice? AttributeUsage.choices) .userApplications }

def ObjectClass.ofJson? (value : Json) : Option ObjectClass := do
  let fields ← value.record? ["oid", "names", "kind", "superiors", "must", "may"]
  some {
    oid := ← fields.required "oid" Json.text?
    names := ← fields.required "names" readTexts
    kind := ← fields.required "kind" (Json.choice? ObjectClassKind.choices)
    superiors := ← fields.optional "superiors" readTexts []
    must := ← fields.optional "must" readTexts []
    may := ← fields.optional "may" readTexts [] }

def SchemaExtensions.ofJson? (value : Json) : Option SchemaExtensions := do
  let fields ← value.record? ["attribute_types", "object_classes"]
  some {
    attributeTypes := ← fields.optional "attribute_types" (Json.list? AttributeType.ofJson?) []
    objectClasses := ← fields.optional "object_classes" (Json.list? ObjectClass.ofJson?) [] }

def ReferralPolicy.ofJson? (value : Json) : Option ReferralPolicy := do
  let fields ← value.record? ["target_referral_as_data"]
  some {
    targetReferralAsData :=
      ← fields.optional "target_referral_as_data" (Json.list? OperationKind.ofJson?) [] }

def AccessConfig.ofJson? (value : Json) : Option AccessConfig := do
  let fields ← value.record? ["allow_anonymous_reads", "administrators"]
  some {
    allowAnonymousReads := ← fields.optional "allow_anonymous_reads" Json.bool? true
    administrators := ← fields.optional "administrators" readTexts [] }

def PartitionConfig.ofJson? (value : Json) : Option PartitionConfig := do
  let fields ← value.record? ["id", "suffix", "context_entry"]
  some {
    id := ← fields.optional "id" Json.text? ""
    suffix := ← fields.optional "suffix" Json.text? ""
    contextValues? := ← fields.optional "context_entry" (Json.nullable? readValueTable) none }

def Config.ofJson? (value : Json) : Option Config := do
  let fields ← value.record? ["partitions", "default_referral_mode", "referral", "access",
    "operational_attributes", "schema"]
  some {
    partitions := ← fields.optional "partitions" (Json.list? PartitionConfig.ofJson?) []
    defaultMode := ← fields.optional "default_referral_mode" (Json.choice? ReferralMode.choices)
      .throw
    referral := ← fields.optional "referral" ReferralPolicy.ofJson? {}
    access := ← fields.optional "access" AccessConfig.ofJson? {}
    operationalAttributes := ← fields.optional "operational_attributes" Json.bool? true
    schema := ← fields.optional "schema" SchemaExtensions.ofJson? {} }

/-- Reads the text of a settings document. -/
def Config.parse? (document : Text) : Option Config := do
  Config.ofJson? (← Json.parse? document)

def AttributeType.toJson (type : AttributeType) : Json := .record [
  ("oid", .text type.oid),
  ("names", .texts type.names),
  ("syntax", .text type.syntaxOid),
  ("equality", .text type.equality.text),
  ("single_value", .bool type.singleValue),
  ("usage", .text type.usage.text)]

def ObjectClass.toJson (cls : ObjectClass) : Json := .record [
  ("oid", .text cls.oid),
  ("names", .texts cls.names),
  ("kind", .text cls.kind.text),
  ("superiors", .texts cls.superiors),
  ("must", .texts cls.must),
  ("may", .texts cls.may)]

def SchemaExtensions.toJson (extensions : SchemaExtensions) : Json := .record [
  ("attribute_types", .array (extensions.attributeTypes.map AttributeType.toJson)),
  ("object_classes", .array (extensions.objectClasses.map ObjectClass.toJson))]

def ReferralPolicy.toJson (policy : ReferralPolicy) : Json := .record [
  ("target_referral_as_data", .texts (policy.targetReferralAsData.map OperationKind.text))]

def AccessConfig.toJson (access : AccessConfig) : Json := .record [
  ("allow_anonymous_reads", .bool access.allowAnonymousReads),
  ("administrators", .texts access.administrators)]

def PartitionConfig.toJson (partition : PartitionConfig) : Json := .record [
  ("id", .text partition.id),
  ("suffix", .text partition.suffix),
  ("context_entry",
    match partition.contextValues? with
    | none => .null
    | some table => .record (table.bindings.map fun (id, values) => (id, .texts values)))]

def Config.toJson (config : Config) : Json := .record [
  ("partitions", .array (config.partitions.map PartitionConfig.toJson)),
  ("default_referral_mode", .text config.defaultMode.text),
  ("referral", config.referral.toJson),
  ("access", config.access.toJson),
  ("operational_attributes", .bool config.operationalAttributes),
  ("schema", config.schema.toJson)]

end Directory
