import Directory.Partition.NamingContexts
import Directory.Referral.Policy
import Directory.Request
import Directory.Schema.Canonical
import Directory.Schema.Conformance

namespace Directory

/-! # Directory agents

An agent answers requests on naming contexts by a schema and a referral policy.  It
first brings names to their canonical form, finds the partition that covers them and
decides by the delegations there whether the request goes on. -/

structure Agent where
  schema : Schema
  policy : ReferralPolicy
deriving DecidableEq

/-- A write that passed every check but those of the partition itself. -/
structure Agent.Plan where
  /-- The identifier of the partition to write to. -/
  partition : Text
  write : Partition.Write

namespace Agent

/-- The partition that covers a name. -/
def covering (contexts : NamingContexts) (dn : Dn) : Except Error Partition :=
  match contexts.resolve? dn with
  | none => .error (.noSuchObject dn.text)
  | some partition => .ok partition

/-- The entry with a name. -/
def existing (partition : Partition) (dn : Dn) : Except Error Entry :=
  match partition.store.find? dn with
  | none => .error (.noSuchObject dn.text)
  | some entry => .ok entry

/-- What the delegations in a partition make of an operation on a name. -/
def classify (agent : Agent) (kind : OperationKind) (mode : ReferralMode) (partition : Partition)
    (dn : Dn) : Outcome :=
  agent.policy.classify kind mode dn (partition.store.find? dn) (partition.walk dn)

/-- Carries out a plan on the naming contexts. -/
def commit (contexts : NamingContexts) (plan : Except Error Plan) :
    Except Error Response × NamingContexts :=
  match plan with
  | .error refusal => (.error refusal, contexts)
  | .ok plan =>
    let (answer, changed) := contexts.perform plan.partition plan.write
    (answer.map fun _ => .done, changed)

end Agent

end Directory
