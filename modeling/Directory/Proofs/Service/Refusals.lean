import Directory.Proofs.Agent.Refusals
import Directory.Proofs.Service.Runs

namespace Directory

/-! # Why a service refuses

The texts of a command and the stages give rise to faults only, and what the stages make of a
request is of the same kind and addresses the same name.  So a refusal that speaks of a delegation
has the grounds that the agent has for it. -/

theorem Rdn.hasOnlyFaults_parse (text : Text) : HasOnlyFaults (parse text) := by
  have makes (attrType value : Text) : HasOnlyFaults (make attrType value) := by
    simp only [make]
    split
    · split
      · exact .ok _
      · exact .error rfl
    · exact .error rfl
  have unescapes (raw : Text) : HasOnlyFaults (unescape raw) := by
    unfold unescape
    split
    · exact .error rfl
    · split
      · exact .error rfl
      · exact .ok _
  refine .bind (.refuseIf rfl) fun _ _ => ?_
  split
  · exact .error rfl
  · exact (unescapes _).bind fun value _ => makes _ value

theorem Dn.hasOnlyFaults_parse (text : Text) : HasOnlyFaults (parse text) := by
  unfold parse
  split
  · exact .ok _
  · exact (RefusesOnly.mapM Rdn.hasOnlyFaults_parse _).bind fun _ _ => .ok _

theorem Filter.hasOnlyFaults_parse (text : Text) : HasOnlyFaults (parse text) := by
  simp only [parse]
  cases read text.trim with
  | error fault => exact .error rfl
  | ok filter => exact .ok filter

theorem Command.hasOnlyFaults_request (command : Command) : HasOnlyFaults command.request := by
  cases command with
  | add entry => exact .ok _
  | modify dn changes => exact (Dn.hasOnlyFaults_parse dn).bind fun _ _ => .ok _
  | delete dn | compare dn attr value | lookup dn | «exists» dn =>
    exact (Dn.hasOnlyFaults_parse dn).bind fun _ _ => .ok _
  | move dn superior =>
    exact (Dn.hasOnlyFaults_parse dn).bind fun _ _ =>
      (Dn.hasOnlyFaults_parse superior).bind fun _ _ => .ok _
  | rename dn rdn deleteOld =>
    exact (Dn.hasOnlyFaults_parse dn).bind fun _ _ =>
      (Rdn.hasOnlyFaults_parse rdn).bind fun _ _ => .ok _
  | moveAndRename dn superior rdn deleteOld =>
    exact (Dn.hasOnlyFaults_parse dn).bind fun _ _ =>
      (Dn.hasOnlyFaults_parse superior).bind fun _ _ =>
        (Rdn.hasOnlyFaults_parse rdn).bind fun _ _ => .ok _
  | search base scope filter =>
    exact (Dn.hasOnlyFaults_parse base).bind fun _ _ =>
      (Filter.hasOnlyFaults_parse filter).bind fun _ _ => .ok _

theorem Stage.hasOnlyFaults_pass (stage : Stage) (now : Instant) (context : Context) :
    HasOnlyFaults (stage.pass now context) := by
  have checks (access : AccessControl) : HasOnlyFaults (access.check context) := by
    simp only [AccessControl.check]
    split
    · exact .ok ()
    · exact .error rfl
  cases stage with
  | tracing => exact .ok context
  | accessControl access => exact (checks access).bind fun _ _ => .ok context
  | operationalAttributes => exact .ok _

theorem Stage.hasOnlyFaults_passAll (now : Instant) (stages : List Stage) (context : Context) :
    HasOnlyFaults (passAll now stages context).1 := by
  induction stages generalizing context with
  | nil => exact .ok ()
  | cons stage rest ih =>
    have first := stage.hasOnlyFaults_pass now context
    rw [passAll]
    cases passes : stage.pass now context with
    | error refusal => exact .error (first refusal passes)
    | ok passed => exact ih passed

theorem Agent.Grounds.of_becomes {agent : Agent} {contexts : NamingContexts}
    {given passed : Request} {mode : ReferralMode} {refusal : Error}
    (grounds : agent.Grounds contexts passed mode refusal) (becomes : given.Becomes passed) :
    agent.Grounds contexts given mode refusal := by
  cases grounds with
  | fault isFault => exact .fault isFault
  | decided normalized decides refused =>
    rw [becomes.target_eq] at normalized
    rw [becomes.kind_eq] at decides
    exact .decided normalized decides refused
  | destination moves dn => exact .destination (becomes.kind_eq ▸ moves) dn

namespace Service

variable (service : Service) (now : Instant) (contexts : NamingContexts)

theorem refusesOnly_execute (context : Context) :
    RefusesOnly (service.agent.Grounds contexts context.request context.mode)
      (service.execute now contexts context).1.1 := by
  have stages := Stage.hasOnlyFaults_passAll now service.stages context
  unfold execute
  cases passes : Stage.passAll now service.stages context with
  | mk outcome passed =>
    rw [passes] at stages
    cases outcome with
    | error refusal => exact .error (.fault (stages refusal rfl))
    | ok =>
      have becomes := Stage.becomes_of_passAll passes
      have answers := Agent.refusesOnly_answer service.agent contexts passed.request passed.mode
      exact answers.mono fun _ grounds => becomes.mode ▸ grounds.of_becomes becomes.request

/-- A session's command is refused because of a fault, or its request on the agent's grounds. -/
theorem refusesOnly_run (session : Session) (command : Command) :
    RefusesOnly
      (fun refusal => refusal.isReferralOutcome = false ∨ ∃ request, command.request = .ok request ∧
        service.agent.Grounds contexts request session.mode refusal)
      (service.run session now contexts command).1 := by
  have reads := command.hasOnlyFaults_request
  unfold run
  cases read : command.request with
  | error refusal => exact .error (.inl (reads refusal read))
  | ok request =>
    have executes := service.refusesOnly_execute now contexts
      ⟨request, session.mode, session.principal?⟩
    exact executes.mono fun _ grounds => .inr ⟨request, rfl, grounds⟩

end Service

end Directory
