import Directory.Proofs.Service.Runs
import Mathlib.Control.Monad.Basic

namespace Directory

/-! # Access

Whether a caller may carry out an operation is settled by its kind, the caller and the settings,
before anything else is looked at.  Whoever is barred is answered in every state alike and changes
none, so a run goes on as if the barred calls had not been made. -/

/-- Whether one of the administrators' texts is read as the name. -/
def AccessConfig.lists (access : AccessConfig) (principal : Dn) : Bool :=
  access.administrators.any fun text =>
    match Dn.parse text with
    | .ok administrator => administrator == principal
    | .error _ => false

/-- Whether a caller may not carry out operations of a kind: without a name no writes, and no reads
if those are turned off; and no writes under another name than an administrator's, if there are
administrators. -/
def AccessConfig.bars (access : AccessConfig) (kind : OperationKind) (principal? : Option Dn) :
    Bool :=
  match principal? with
  | none => kind.isWrite || !access.allowAnonymousReads
  | some principal =>
    kind.isWrite && !access.administrators.isEmpty && !access.lists principal

namespace AccessConfig

variable {access : AccessConfig} {administrators : List Dn} {principal : Dn}

theorem lists_iff : access.lists principal = true ↔ ∃ text ∈ access.administrators,
    ∃ administrator, Dn.parse text = .ok administrator ∧ (administrator == principal) = true := by
  rw [lists, List.any_eq_true]
  refine exists_congr fun text => and_congr_right fun _ => ?_
  cases Dn.parse text with
  | error refusal => simp
  | ok administrator => simp

theorem lists_eq_any (read : access.administratorDns = .ok administrators) (principal : Dn) :
    access.lists principal = administrators.any (· == principal) := by
  rw [Bool.eq_iff_iff, lists_iff, List.any_eq_true]
  constructor
  · rintro ⟨text, listed, administrator, parsed, same⟩
    obtain ⟨other, member, again⟩ := exists_mem_of_mapM read listed
    rw [mapError_eq_ok_iff, parsed] at again
    exact ⟨other, member, Except.ok.inj again ▸ same⟩
  · rintro ⟨administrator, member, same⟩
    obtain ⟨text, listed, parsed⟩ := exists_of_mem_mapM read member
    exact ⟨text, listed, administrator, mapError_eq_ok_iff.mp parsed, same⟩

theorem isEmpty_eq (read : access.administratorDns = .ok administrators) :
    administrators.isEmpty = access.administrators.isEmpty := by
  rw [administratorDns] at read
  cases texts : access.administrators with
  | nil =>
    rw [texts] at read
    cases read
    rfl
  | cons text rest =>
    rw [texts] at read
    obtain ⟨first, others, _, _, rfl⟩ := mapM_cons_eq_ok_iff.mp read
    rfl

theorem isSome_denial? (read : access.administratorDns = .ok administrators)
    (kind : OperationKind) (principal? : Option Dn) :
    ((AccessControl.mk access.allowAnonymousReads administrators).denial? kind principal?).isSome =
      access.bars kind principal? := by
  cases principal? with
  | none =>
    simp only [AccessControl.denial?, bars]
    cases kind.isWrite <;> cases access.allowAnonymousReads <;> rfl
  | some principal =>
    simp only [AccessControl.denial?, bars, isEmpty_eq read, lists_eq_any read]
    split
    · next denied => rw [denied, Option.isSome_some]
    · next allowed => rw [Bool.not_eq_true] at allowed; rw [allowed, Option.isSome_none]

end AccessConfig

namespace AccessControl

variable {access : AccessControl} {context : Context}

theorem check_of_denied {reason : Text}
    (denied : access.denial? context.request.kind context.principal? = some reason) :
    ∃ shown, access.check context = .error (.insufficientAccessRights shown) :=
  ⟨_, by rw [check, denied]⟩

theorem check_of_allowed (allowed : access.denial? context.request.kind context.principal? = none) :
    access.check context = .ok () := by
  rw [check, allowed]

end AccessControl

namespace Stage

variable {access : AccessControl} {context : Context}

/-- The caller is checked before the time is looked at. -/
theorem passAll_of_refused {refusal : Error} (refused : access.check context = .error refusal)
    (stamps : Bool) (now : Instant) :
    passAll now (tracing :: accessControl access :: if stamps then [operationalAttributes] else [])
      context = (.error refusal, context) := by
  simp only [passAll, pass, refused]
  rfl

theorem passAll_of_allowed (allowed : access.check context = .ok ()) (stamps : Bool)
    (now : Instant) :
    (passAll now
      (tracing :: accessControl access :: if stamps then [operationalAttributes] else [])
      context).1 = .ok () := by
  simp only [passAll, pass, allowed]
  cases stamps <;> rfl

end Stage

/-- The settings of one partition that only `cn=admin,o=a` may write to. -/
def Config.administered (allowAnonymousReads : Bool) : Config :=
  { Config.single "p" "o=a" [("objectClass", ["organization"]), ("o", ["a"])] with
    access := { allowAnonymousReads, administrators := ["cn=admin,o=a"] } }

namespace Service

variable {config : Config} {service : Service} {start : NamingContexts}

theorem stages_eq (started : ofConfig config = .ok (service, start)) :
    ∃ administrators, config.access.administratorDns = .ok administrators ∧
      service.stages =
        .tracing :: .accessControl ⟨config.access.allowAnonymousReads, administrators⟩ ::
          if config.operationalAttributes then [.operationalAttributes] else [] := by
  simp only [ofConfig, bind_eq_ok_iff] at started
  obtain ⟨_, _, _, _, _, _, stages, built, _, _, same⟩ := started
  cases same
  simp only [mapError_eq_ok_iff, Stage.ofConfig, bind_eq_ok_iff, Except.ok.injEq] at built
  obtain ⟨administrators, read, rfl⟩ := built
  refine ⟨administrators, read, ?_⟩
  cases config.operationalAttributes <;> rfl

/-- The stages refuse what the settings bar, for a reason that the time has no part in. -/
theorem passAll_of_barred (started : ofConfig config = .ok (service, start)) {context : Context}
    (barred : config.access.bars context.request.kind context.principal? = true) :
    ∃ reason, ∀ now, Stage.passAll now service.stages context =
      (.error (.insufficientAccessRights reason), context) := by
  obtain ⟨administrators, read, stages⟩ := stages_eq started
  rw [← AccessConfig.isSome_denial? read, Option.isSome_iff_exists] at barred
  obtain ⟨_, denied⟩ := barred
  obtain ⟨reason, refused⟩ := AccessControl.check_of_denied denied
  exact ⟨reason, fun now => stages ▸ Stage.passAll_of_refused refused _ now⟩

theorem passAll_of_not_barred (started : ofConfig config = .ok (service, start))
    {context : Context}
    (clear : config.access.bars context.request.kind context.principal? = false) (now : Instant) :
    (Stage.passAll now service.stages context).1 = .ok () := by
  obtain ⟨administrators, read, stages⟩ := stages_eq started
  rw [← AccessConfig.isSome_denial? read, Option.isSome_eq_false_iff, Option.isNone_iff_eq_none]
    at clear
  rw [stages]
  exact Stage.passAll_of_allowed (AccessControl.check_of_allowed clear) _ now

theorem exists_passAll (started : ofConfig config = .ok (service, start)) (context : Context)
    (clear : config.access.bars context.request.kind context.principal? = false) (now : Instant) :
    ∃ passed, Stage.passAll now service.stages context = (.ok (), passed) :=
  ⟨_, Prod.ext (passAll_of_not_barred started clear now) rfl⟩

theorem passAll_eq_ok_iff (started : ofConfig config = .ok (service, start)) (now : Instant)
    (context : Context) : (Stage.passAll now service.stages context).1 = .ok () ↔
      config.access.bars context.request.kind context.principal? = false := by
  cases barred : config.access.bars context.request.kind context.principal? with
  | false => simp [passAll_of_not_barred started barred now]
  | true =>
    obtain ⟨reason, refused⟩ := passAll_of_barred started barred
    simp [refused now]

theorem not_barred_of_execute (started : ofConfig config = .ok (service, start)) {now : Instant}
    {contexts : NamingContexts} {context : Context} {response : Response}
    (answered : (service.execute now contexts context).1.1 = .ok response) :
    config.access.bars context.request.kind context.principal? = false := by
  cases barred : config.access.bars context.request.kind context.principal? with
  | false => rfl
  | true =>
    obtain ⟨reason, refused⟩ := passAll_of_barred started barred
    simp [execute, refused] at answered

/-- A barred command is answered before anything that is kept is looked at. -/
theorem run_of_barred (started : ofConfig config = .ok (service, start)) {session : Session}
    {command : Command} {request : Request} (read : command.request = .ok request)
    (barred : config.access.bars request.kind session.principal? = true) :
    ∃ reason, ∀ now contexts, service.run session now contexts command =
      (.error (.insufficientAccessRights reason), contexts) := by
  obtain ⟨reason, refused⟩ : ∃ reason, ∀ now, Stage.passAll now service.stages
      ⟨request, session.mode, session.principal?⟩ =
        (.error (.insufficientAccessRights reason), ⟨request, session.mode, session.principal?⟩) :=
    passAll_of_barred started barred
  refine ⟨reason, fun now contexts => ?_⟩
  simp only [run, read, execute, refused]

/-- Whether an event is a call with readable texts that settings bar. -/
def bars (service : Service) (access : AccessConfig) : Event → Bool
  | .seed _ => false
  | .call principal? mode? _ command =>
    match service.session principal? mode?, command.request with
    | .ok session, .ok request => access.bars request.kind session.principal?
    | _, _ => false

theorem step_of_barred (started : ofConfig config = .ok (service, start)) {event : Event}
    (barred : service.bars config.access event = true) :
    ∃ reason, ∀ contexts, service.step contexts event =
      (.answered (.error (.insufficientAccessRights reason)), contexts) := by
  cases event with
  | seed entry => simp [bars] at barred
  | call principal? mode? now command =>
    simp only [bars] at barred
    cases opened : service.session principal? mode? with
    | error refusal => simp [opened] at barred
    | ok session =>
      cases read : command.request with
      | error refusal => simp [opened, read] at barred
      | ok request =>
        simp only [opened, read] at barred
        obtain ⟨reason, refused⟩ := run_of_barred started read barred
        exact ⟨reason, fun contexts => by simp only [step, opened, refused]⟩

/-- The replies of a run to the events that are not barred. -/
def admittedReplies (service : Service) (access : AccessConfig) (contexts : NamingContexts)
    (events : List Event) : List Reply :=
  ((events.zip (service.replies contexts events)).filter fun step =>
    !service.bars access step.1).map Prod.snd

theorem run_without_barred (started : ofConfig config = .ok (service, start))
    (contexts : NamingContexts) (events : List Event) :
    service.after contexts (events.filter fun event => !service.bars config.access event) =
        service.after contexts events ∧
      service.replies contexts (events.filter fun event => !service.bars config.access event) =
        service.admittedReplies config.access contexts events := by
  induction events generalizing contexts with
  | nil => exact ⟨rfl, rfl⟩
  | cons event rest ih =>
    obtain ⟨sameState, sameReplies⟩ := ih (service.step contexts event).2
    cases barred : service.bars config.access event with
    | false =>
      constructor
      · simpa [after, List.filter_cons, barred] using sameState
      · simpa [replies, admittedReplies, List.filter_cons, barred] using sameReplies
    | true =>
      obtain ⟨reason, refused⟩ := step_of_barred started barred
      rw [refused] at sameState sameReplies
      constructor
      · simpa [after, List.filter_cons, barred, refused] using sameState
      · simpa [replies, admittedReplies, List.filter_cons, barred, refused] using sameReplies

/-- Callers who may not carry out an operation are refused for access, whatever there is, and change
nothing; they are answered the same in any two states; and a run without their calls leads to the
same state with the same replies to all others. -/
theorem barred_calls_leave_no_trace (started : ofConfig config = .ok (service, start)) :
    (∀ session command request, command.request = .ok request →
        config.access.bars request.kind session.principal? = true →
        ∃ reason, ∀ now contexts, service.run session now contexts command =
          (.error (.insufficientAccessRights reason), contexts)) ∧
      (∀ event, service.bars config.access event = true → ∀ left right,
        (service.step left event).1 = (service.step right event).1) ∧
      ∀ contexts events,
        service.after contexts (events.filter fun event => !service.bars config.access event) =
            service.after contexts events ∧
          service.replies contexts
              (events.filter fun event => !service.bars config.access event) =
            service.admittedReplies config.access contexts events := by
  refine ⟨fun _ _ _ read barred => run_of_barred started read barred,
    fun event barred left right => ?_, run_without_barred started⟩
  obtain ⟨reason, refused⟩ := step_of_barred started barred
  rw [refused, refused]

/-- Of three calls the one without a name and the one under another name leave no trace beside that
of the administrator. -/
theorem barred_calls_leave_no_trace_of_others :
    ∃ (config : Config) (service : Service) (start : NamingContexts)
      (reads deletes modifies : Event) (reply : Reply),
      ofConfig config = .ok (service, start) ∧
      service.bars config.access reads = true ∧ service.bars config.access deletes = true ∧
      service.bars config.access modifies = false ∧
      service.after start [reads, modifies, deletes] = service.after start [modifies] ∧
      service.after start [modifies] ≠ start ∧
      service.admittedReplies config.access start [reads, modifies, deletes] = [reply] ∧
      service.replies start [modifies] = [reply] := by
  let config := Config.administered false
  let reads : Event := .call none none ⟨2024, 1, 1, 0, 0, 0⟩ (.lookup "o=a")
  let deletes : Event := .call (some "cn=x,o=a") none ⟨2024, 1, 1, 0, 0, 0⟩ (.delete "o=a")
  let modifies : Event := .call (some "CN = Admin,O=A") none ⟨2024, 1, 1, 0, 0, 0⟩
    (.modify "o=a" [⟨.replace, "description", ["d"]⟩])
  have run : (do
      let built ← ofConfig config
      Except.ok (decide (built.1.bars config.access reads = true ∧
        built.1.bars config.access deletes = true ∧
        built.1.bars config.access modifies = false ∧
        built.1.after built.2 [modifies] ≠ built.2))) = Except.ok (ε := Error) true := by
    decide +kernel
  obtain ⟨⟨service, start⟩, started, run⟩ := bind_eq_ok_iff.mp run
  obtain ⟨readsBarred, deletesBarred, modifiesClear, changed⟩ :=
    of_decide_eq_true (Except.ok.inj run)
  obtain ⟨_, _, purged⟩ := barred_calls_leave_no_trace started
  obtain ⟨sameState, sameReplies⟩ := purged start [reads, modifies, deletes]
  have kept : ([reads, modifies, deletes].filter fun event =>
      !service.bars config.access event) = [modifies] := by
    simp [readsBarred, deletesBarred, modifiesClear]
  rw [kept] at sameState sameReplies
  exact ⟨config, service, start, reads, deletes, modifies, (service.step start modifies).1, started,
    readsBarred, deletesBarred, modifiesClear, sameState.symm, changed, sameReplies.symm, rfl⟩

end Service

end Directory
