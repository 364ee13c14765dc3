import Directory.Agent.Answer
import Directory.Schema.Core
import Directory.Service.Command
import Directory.Service.Stage

namespace Directory

/-! # The directory service

A service is an agent behind its stages.  It is built from settings together with the
naming contexts it starts with; from then on every call yields an answer and the naming
contexts after it. -/

structure Service where
  agent : Agent
  stages : List Stage
  /-- How delegations are treated for callers who do not say it. -/
  defaultMode : ReferralMode
deriving DecidableEq

/-- A caller and how delegations are to be treated for it. -/
structure Session where
  mode : ReferralMode
  principal? : Option Dn
deriving DecidableEq

namespace Service

/-- Answers a request, after the stages it has to pass; also returns the request as
they left it. -/
def execute (service : Service) (now : Instant) (contexts : NamingContexts) (context : Context) :
    (Except Error Response × NamingContexts) × Context :=
  match Stage.passAll now service.stages context with
  | (.ok (), passed) => (service.agent.answer contexts passed.request passed.mode, passed)
  | (.error refusal, left) => ((.error refusal, contexts), left)

/-- Keeps an entry without asking the stages or the delegations; tells whether it was
new. -/
def seed (service : Service) (contexts : NamingContexts) (entry : Entry) :
    Except Error Bool × NamingContexts :=
  match service.agent.answer contexts (.add entry) .manageDsaIt with
  | (.ok _, changed) => (.ok true, changed)
  | (.error (.alreadyExists _), changed) => (.ok false, changed)
  | (.error refusal, changed) => (.error refusal, changed)

/-- Keeps entries in turn up to the first refusal. -/
def seedAll (service : Service) : NamingContexts → List Entry → Except Error NamingContexts
  | contexts, [] => .ok contexts
  | contexts, entry :: rest =>
    match service.seed contexts entry with
    | (.ok _, changed) => seedAll service changed rest
    | (.error refusal, _) => .error refusal

/-- Opens a session for a caller, who is anonymous without a name. -/
def session (service : Service) (principal? : Option Text) (mode? : Option ReferralMode) :
    Except Error Session := do
  let principal? ← principal?.mapM Dn.parse
  .ok ⟨mode?.getD service.defaultMode, principal?⟩

/-- Carries out a command for a session. -/
def run (service : Service) (session : Session) (now : Instant) (contexts : NamingContexts)
    (command : Command) : Except Error Response × NamingContexts :=
  match command.request with
  | .error refusal => (.error refusal, contexts)
  | .ok request => (service.execute now contexts ⟨request, session.mode, session.principal?⟩).1

/-- The partition that settings describe, without entries, and its first entry. -/
def openPartition (schema : Schema) (contexts : NamingContexts) (config : PartitionConfig) :
    Except Error (NamingContexts × Option Entry) := do
  let written ← config.suffixDn.mapError ConfigError.toError
  let suffix ← schema.normalizeDn written
  match contexts.register (.empty config.id suffix) with
  | (.error conflict, _) => .error conflict
  | (.ok (), registered) => .ok (registered, config.contextEntry? suffix)

/-- Opens partitions in order and collects the entries to create. -/
def openPartitions (schema : Schema) :
    NamingContexts → List PartitionConfig → Except Error (NamingContexts × List Entry)
  | contexts, [] => .ok (contexts, [])
  | contexts, config :: rest => do
    let (opened, first?) ← openPartition schema contexts config
    let (contexts, entries) ← openPartitions schema opened rest
    .ok (contexts, first?.toList ++ entries)

/-- The service that settings describe and the naming contexts it starts with. -/
def ofConfig (config : Config) : Except Error (Service × NamingContexts) := do
  config.validate.mapError ConfigError.toError
  let schema ← Schema.core.extended config.schema
  let (contexts, entries) ← openPartitions schema .empty config.partitions
  let stages ← (Stage.ofConfig config).mapError ConfigError.toError
  let service : Service := ⟨⟨schema, config.referral⟩, stages, config.defaultMode⟩
  let contexts ← service.seedAll contexts entries
  .ok (service, contexts)

end Service

end Directory
