import Directory.Referral.Policy
import Directory.Schema.Basic

namespace Directory

open Text

/-! # Settings

What a server is started with: its partitions with their first entries, how it treats
delegations and callers, and the definitions it adds to the core schema. -/

structure PartitionConfig where
  id : Text := ""
  suffix : Text := ""
  /-- The values of the entry at the suffix, which is created at the start. -/
  contextValues? : Option (KeyTable (List Text)) := none
deriving DecidableEq

structure AccessConfig where
  allowAnonymousReads : Bool := true
  /-- The names of those who may write; everyone with a name if there are none. -/
  administrators : List Text := []
deriving DecidableEq, Repr

structure Config where
  partitions : List PartitionConfig := []
  defaultMode : ReferralMode := .throw
  referral : ReferralPolicy := {}
  access : AccessConfig := {}
  /-- Whether entries record who created and modified them, and when. -/
  operationalAttributes : Bool := true
  schema : SchemaExtensions := {}
deriving DecidableEq

inductive ConfigError where
  | emptyPartitionId
  | duplicatePartitionId (id : Text)
  | invalidSuffix (id reason : Text)
  | invalidAdministrator (dn reason : Text)
deriving DecidableEq, Repr

namespace ConfigError

def message : ConfigError → Text
  | emptyPartitionId => "partition id cannot be empty"
  | duplicatePartitionId id => "duplicate partition id: " ++ id
  | invalidSuffix id reason => "invalid suffix for partition " ++ id ++ ": " ++ reason
  | invalidAdministrator dn reason => "invalid administrator " ++ dn ++ ": " ++ reason

/-- The fault as it is reported when a server does not start. -/
def toError (fault : ConfigError) : Error := .configuration fault.message

end ConfigError

/-- The suffix as a name, which may not be the root. -/
def PartitionConfig.suffixDn (partition : PartitionConfig) : Except ConfigError Dn := do
  let suffix ← (Dn.parse partition.suffix).mapError fun fault =>
    .invalidSuffix partition.id fault.message
  refuseIf suffix.isRoot (.invalidSuffix partition.id "suffix is empty")
  .ok suffix

/-- The entry to create at the suffix. -/
def PartitionConfig.contextEntry? (partition : PartitionConfig) (suffix : Dn) : Option Entry :=
  partition.contextValues?.map fun table => Entry.ofValues suffix table.bindings

/-- The names of the administrators. -/
def AccessConfig.administratorDns (access : AccessConfig) : Except ConfigError (List Dn) :=
  access.administrators.mapM fun text =>
    (Dn.parse text).mapError fun fault => .invalidAdministrator text fault.message

/-- Checks partitions in order, after those whose identifiers are `taken`. -/
def Config.checkPartitions (taken : List Text) : List PartitionConfig → Except ConfigError Unit
  | [] => .ok ()
  | partition :: rest => do
    refuseIf partition.id.trim.isEmpty .emptyPartitionId
    refuseIf (taken.contains partition.id) (.duplicatePartitionId partition.id)
    let _ ← partition.suffixDn
    checkPartitions (partition.id :: taken) rest

/-- Checks everything that can be checked without a schema. -/
def Config.validate (config : Config) : Except ConfigError Unit := do
  Config.checkPartitions [] config.partitions
  let _ ← config.access.administratorDns

end Directory
