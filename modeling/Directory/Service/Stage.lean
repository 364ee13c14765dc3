import Directory.Config.Basic
import Directory.Instant
import Directory.Request

namespace Directory

/-! # Stages

Before a request reaches the agent it passes a list of stages, each of which may refuse
it or add to it. -/

/-- Who may read and write. -/
structure AccessControl where
  allowAnonymousReads : Bool
  administrators : List Dn
deriving DecidableEq

inductive Stage where
  /-- Watches requests go by. -/
  | tracing
  /-- Refuses what the caller may not do. -/
  | accessControl (access : AccessControl)
  /-- Records who created or modified an entry, and when. -/
  | operationalAttributes
deriving DecidableEq

namespace AccessControl

/-- Why a caller may not carry out an operation. -/
def denial? (access : AccessControl) (kind : OperationKind) (principal? : Option Dn) :
    Option Text :=
  match principal? with
  | none =>
    if kind.isWrite then some "anonymous writes are not allowed"
    else if !access.allowAnonymousReads then some "anonymous reads are not allowed"
    else none
  | some principal =>
    if kind.isWrite && !access.administrators.isEmpty &&
        !access.administrators.any (· == principal) then
      some "principal is not an administrator"
    else none

def check (access : AccessControl) (context : Context) : Except Error Unit :=
  let kind := context.request.kind
  match access.denial? kind context.principal? with
  | none => .ok ()
  | some reason =>
    .error (.insufficientAccessRights
      (kind.text ++ " of " ++ context.request.target.text ++ ": " ++ reason))

end AccessControl

/-- The request with the time and the caller written into it. -/
def Request.stamped (request : Request) (now : Text) (principal? : Option Dn) : Request :=
  match request with
  | .add entry =>
    let entry := entry.put "createTimestamp" [now]
    match principal? with
    | none => .add entry
    | some principal => .add (entry.put "creatorsName" [principal.text])
  | .modify dn changes =>
    let changes := changes ++ [⟨.replace, "modifyTimestamp", [now]⟩]
    match principal? with
    | none => .modify dn changes
    | some principal => .modify dn (changes ++ [⟨.replace, "modifiersName", [principal.text]⟩])
  | other => other

namespace Stage

def name : Stage → Text
  | tracing => "tracing"
  | accessControl _ => "access_control"
  | operationalAttributes => "operational_attributes"

/-- The request as it leaves the stage. -/
def pass (stage : Stage) (now : Instant) (context : Context) : Except Error Context :=
  match stage with
  | tracing => .ok context
  | accessControl access => do
    access.check context
    .ok context
  | operationalAttributes =>
    .ok { context with
      request := context.request.stamped now.generalizedTime context.principal? }

/-- Passes stages in order up to the first refusal, and keeps the request as it was
then. -/
def passAll (now : Instant) : List Stage → Context → Except Error Unit × Context
  | [], context => (.ok (), context)
  | stage :: rest, context =>
    match stage.pass now context with
    | .ok passed => passAll now rest passed
    | .error refusal => (.error refusal, context)

theorem passAll_cons_eq_ok_iff {now : Instant} {stage : Stage} {rest : List Stage}
    {given passed : Context} : passAll now (stage :: rest) given = (.ok (), passed) ↔
      ∃ middle, stage.pass now given = .ok middle ∧ passAll now rest middle = (.ok (), passed) := by
  rw [passAll]
  cases stage.pass now given <;> simp

/-- The stages that settings ask for. -/
def ofConfig (config : Config) : Except ConfigError (List Stage) := do
  let administrators ← config.access.administratorDns
  let access := accessControl ⟨config.access.allowAnonymousReads, administrators⟩
  .ok (if config.operationalAttributes then [tracing, access, operationalAttributes]
    else [tracing, access])

end Stage

end Directory
