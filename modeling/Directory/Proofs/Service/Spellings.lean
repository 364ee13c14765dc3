import Directory.Proofs.Agent.Spellings
import Directory.Proofs.Service.Runs

namespace Directory

/-! # Spellings of a name in a service

Whoever addresses an entry may write its name in any spelling: commands that differ in nothing else
are answered alike and leave the same state. -/

/-- A command that goes by one name, given any text for the name. -/
inductive Command.Addresses : (Text → Command) → Prop where
  | modify (changes : List Modification) : Addresses (.modify · changes)
  | delete : Addresses .delete
  | search (scope : SearchScope) (filter : Text) : Addresses (.search · scope filter)
  | compare (attr value : Text) : Addresses (.compare · attr value)
  | lookup : Addresses .lookup
  | exists : Addresses .exists

/-- The texts are read as spellings of one name of the schema. -/
inductive Schema.Identifies (schema : Schema) (left right : Text) : Prop where
  | intro {ours theirs : Dn} (normalized : schema.normalize left = .ok ours)
      (otherNormalized : schema.normalize right = .ok theirs) (same : (ours == theirs) = true)

theorem Command.Addresses.request_alike {command : Text → Command} (addresses : Addresses command)
    {left right : Text} {given other : Dn} (read : Dn.parse left = .ok given)
    (otherRead : Dn.parse right = .ok other) :
    AnswersAlike (Request.Readdresses given other) (command left).request
      (command right).request := by
  cases addresses with
  | modify changes =>
    simp only [request, read, otherRead]
    exact .ok (.modify changes)
  | delete =>
    simp only [request, read, otherRead]
    exact .ok .delete
  | search scope filter =>
    simp only [request, read, otherRead]
    exact (AnswersAlike.refl (Filter.parse filter)).bind_eq fun _ => .ok (.search scope _)
  | compare attr value =>
    simp only [request, read, otherRead]
    exact .ok (.compare attr value)
  | lookup =>
    simp only [request, read, otherRead]
    exact .ok .lookup
  | «exists» =>
    simp only [request, read, otherRead]
    exact .ok .exists

namespace Request.Readdresses

variable {given other : Dn} {ours theirs : Request}

theorem kind_eq (readdressed : ours.Readdresses given other theirs) : ours.kind = theirs.kind := by
  cases readdressed <;> rfl

theorem stamped (readdressed : ours.Readdresses given other theirs) (now : Text)
    (principal? : Option Dn) :
    (ours.stamped now principal?).Readdresses given other (theirs.stamped now principal?) := by
  cases readdressed with
  | modify changes => cases principal? <;> exact .modify _
  | delete => exact .delete
  | search scope filter => exact .search scope filter
  | compare attr value => exact .compare attr value
  | lookup => exact .lookup
  | «exists» => exact .exists

end Request.Readdresses

/-- The same caller in the same mode with a request about either of two names. -/
structure Context.Readdresses (given other : Dn) (ours theirs : Context) : Prop where
  request : ours.request.Readdresses given other theirs.request
  mode : ours.mode = theirs.mode
  principal? : ours.principal? = theirs.principal?

theorem AccessControl.check_alike {given other : Dn} {ours theirs : Context}
    (access : AccessControl) (readdressed : ours.Readdresses given other theirs) :
    AnswersAlike Eq (access.check ours) (access.check theirs) := by
  simp only [check, readdressed.request.kind_eq, readdressed.principal?]
  cases access.denial? theirs.request.kind theirs.principal? with
  | none => exact .ok rfl
  | some reason => exact .error (.insufficientAccessRights _ _)

namespace Stage

variable {given other : Dn} {ours theirs : Context}

theorem pass_alike (stage : Stage) (now : Instant)
    (readdressed : ours.Readdresses given other theirs) :
    AnswersAlike (Context.Readdresses given other) (stage.pass now ours)
      (stage.pass now theirs) := by
  cases stage with
  | tracing => exact .ok readdressed
  | accessControl access =>
    exact (access.check_alike readdressed).bind_eq fun _ => .ok readdressed
  | operationalAttributes =>
    refine .ok ⟨?_, readdressed.mode, readdressed.principal?⟩
    rw [readdressed.principal?]
    exact readdressed.request.stamped _ _

theorem passAll_alike (now : Instant) (stages : List Stage)
    (readdressed : ours.Readdresses given other theirs) :
    AnswersAlike Eq (passAll now stages ours).1 (passAll now stages theirs).1 ∧
      (passAll now stages ours).2.Readdresses given other (passAll now stages theirs).2 := by
  induction stages generalizing ours theirs with
  | nil => exact ⟨.ok rfl, readdressed⟩
  | cons stage rest ih =>
    have passes := stage.pass_alike now readdressed
    rw [passAll, passAll]
    generalize stage.pass now ours = passed at passes ⊢
    generalize stage.pass now theirs = otherPassed at passes ⊢
    cases passes with
    | ok further => exact ih further
    | error alike => exact ⟨.error alike, readdressed⟩

end Stage

namespace Service

variable {service : Service}

theorem execute_alike {given other : Dn} {ours theirs : Context}
    (same : AnswersAlike Dn.SamePath (service.agent.schema.normalizeDn given)
      (service.agent.schema.normalizeDn other))
    (readdressed : ours.Readdresses given other theirs) (now : Instant)
    (contexts : NamingContexts) :
    AnswersAlike Eq (service.execute now contexts ours).1.1
        (service.execute now contexts theirs).1.1 ∧
      (service.execute now contexts ours).1.2 = (service.execute now contexts theirs).1.2 := by
  obtain ⟨outcomes, further⟩ := Stage.passAll_alike now service.stages readdressed
  unfold execute
  generalize Stage.passAll now service.stages ours = left at outcomes further ⊢
  generalize Stage.passAll now service.stages theirs = right at outcomes further ⊢
  obtain ⟨outcome, passed⟩ := left
  obtain ⟨otherOutcome, otherPassed⟩ := right
  cases outcomes with
  | ok =>
    have sameMode : passed.mode = otherPassed.mode := further.mode
    simp only [sameMode]
    exact Agent.answer_alike same further.request contexts otherPassed.mode
  | error alike => exact ⟨.error alike, rfl⟩

theorem run_alike {command : Text → Command} (addresses : Command.Addresses command)
    {left right : Text} (identified : service.agent.schema.Identifies left right)
    (session : Session) (now : Instant) (contexts : NamingContexts) :
    AnswersAlike Eq (service.run session now contexts (command left)).1
        (service.run session now contexts (command right)).1 ∧
      (service.run session now contexts (command left)).2 =
        (service.run session now contexts (command right)).2 := by
  obtain ⟨normalized, otherNormalized, same⟩ := identified
  obtain ⟨given, read, normalized⟩ := bind_eq_ok_iff.mp normalized
  obtain ⟨other, otherRead, otherNormalized⟩ := bind_eq_ok_iff.mp otherNormalized
  have spelled : AnswersAlike Dn.SamePath (service.agent.schema.normalizeDn given)
      (service.agent.schema.normalizeDn other) := by
    rw [normalized, otherNormalized]
    exact .ok (Dn.beq_iff_path.mp same)
  have reads := addresses.request_alike read otherRead
  unfold run
  generalize (command left).request = ours at reads ⊢
  generalize (command right).request = theirs at reads ⊢
  cases reads with
  | @ok request otherRequest readdressed =>
    have submitted : Context.Readdresses given other ⟨request, session.mode, session.principal?⟩
        ⟨otherRequest, session.mode, session.principal?⟩ := ⟨readdressed, rfl, rfl⟩
    exact execute_alike spelled submitted now contexts
  | error alike => exact ⟨.error alike, rfl⟩

/-- Texts that are read as one name, however they spell it, get the same answer, or refusals of one
kind with as many URLs, and leave the same contents. -/
theorem answers_ignore_spelling {command : Text → Command} (addresses : Command.Addresses command)
    {left right : Text} {ours theirs : Dn}
    (normalized : service.agent.schema.normalize left = .ok ours)
    (otherNormalized : service.agent.schema.normalize right = .ok theirs)
    (same : (ours == theirs) = true) (session : Session) (now : Instant)
    (contexts : NamingContexts) :
    (service.run session now contexts (command left)).2 =
        (service.run session now contexts (command right)).2 ∧
      ((∃ response, (service.run session now contexts (command left)).1 = .ok response ∧
          (service.run session now contexts (command right)).1 = .ok response) ∨
        ∃ refusal other, (service.run session now contexts (command left)).1 = .error refusal ∧
          (service.run session now contexts (command right)).1 = .error other ∧
          refusal.resultCode = other.resultCode ∧
          refusal.referralUrls.length = other.referralUrls.length) := by
  obtain ⟨alike, sameContexts⟩ :=
    run_alike addresses ⟨normalized, otherNormalized, same⟩ session now contexts
  refine ⟨sameContexts, ?_⟩
  generalize (service.run session now contexts (command left)).1 = answer at alike ⊢
  generalize (service.run session now contexts (command right)).1 = otherAnswer at alike ⊢
  cases alike with
  | @ok response _ agrees => exact .inl ⟨response, rfl, congrArg _ agrees.symm⟩
  | @error refusal other alike =>
    exact .inr ⟨refusal, other, rfl, rfl, alike.resultCode_eq, alike.length_referralUrls⟩

/-- Below a delegation to `ldap://h/o=b` the two spellings are sent to different URLs, one each; an
entry that is not delegated is deleted under either. -/
theorem answers_ignore_spelling_oid_and_escape :
    ∃ (config : Config) (service : Service) (contexts : NamingContexts) (session : Session),
      Reachable config service contexts ∧
      (service.run session ⟨2024, 1, 1, 0, 0, 0⟩ contexts (.lookup "cn=c,ou=r,o=a")).1 =
        .error (.referral ["ldap://h/cn=c,o=b"]) ∧
      (service.run session ⟨2024, 1, 1, 0, 0, 0⟩ contexts
          (.lookup "2.5.4.3 = \\43, OU = R ,organizationName=A")).1 =
        .error (.referral ["ldap://h/2.5.4.3=C,o=b"]) ∧
      (service.run session ⟨2024, 1, 1, 0, 0, 0⟩ contexts (.delete "CommonName=\\41,O=a")).1 =
        .ok .done ∧
      (service.run session ⟨2024, 1, 1, 0, 0, 0⟩ contexts (.delete "CommonName=\\41,O=a")).2 =
        (service.run session ⟨2024, 1, 1, 0, 0, 0⟩ contexts (.delete "cn=a,o=a")).2 := by
  have run : (do
      let principal ← Dn.parse "o=a"
      let delegation ← Dn.parse "ou=r,o=a"
      let leaf ← Dn.parse "cn=a,o=a"
      let built ← ofConfig
        (Config.single "p" "o=a" [("objectClass", ["organization"]), ("o", ["a"])])
      let contexts := built.1.after built.2 [
        .seed (.ofValues delegation [("objectClass", ["referral", "extensibleObject"]),
          ("ou", ["r"]), ("ref", ["ldap://h/o=b"])]),
        .seed (.ofValues leaf [("objectClass", ["person"]), ("cn", ["a"]), ("sn", ["a"])])]
      let session : Session := ⟨.throw, some principal⟩
      let ours ← built.1.agent.schema.normalize "CommonName=\\41,O=a"
      let theirs ← built.1.agent.schema.normalize "cn=a,o=a"
      Except.ok (decide ((ours == theirs) = true ∧
        (built.1.run session ⟨2024, 1, 1, 0, 0, 0⟩ contexts (.lookup "cn=c,ou=r,o=a")).1 =
          .error (.referral ["ldap://h/cn=c,o=b"]) ∧
        (built.1.run session ⟨2024, 1, 1, 0, 0, 0⟩ contexts
            (.lookup "2.5.4.3 = \\43, OU = R ,organizationName=A")).1 =
          .error (.referral ["ldap://h/2.5.4.3=C,o=b"]) ∧
        (built.1.run session ⟨2024, 1, 1, 0, 0, 0⟩ contexts
          (.delete "CommonName=\\41,O=a")).1 = .ok .done))) = Except.ok (ε := Error) true := by
    decide +kernel
  obtain ⟨principal, _, run⟩ := bind_eq_ok_iff.mp run
  obtain ⟨delegation, _, run⟩ := bind_eq_ok_iff.mp run
  obtain ⟨leaf, _, run⟩ := bind_eq_ok_iff.mp run
  obtain ⟨⟨service, start⟩, started, run⟩ := bind_eq_ok_iff.mp run
  obtain ⟨ours, normalized, run⟩ := bind_eq_ok_iff.mp run
  obtain ⟨theirs, otherNormalized, run⟩ := bind_eq_ok_iff.mp run
  obtain ⟨same, refers, otherRefers, deleted⟩ := of_decide_eq_true (Except.ok.inj run)
  exact ⟨_, service, _, ⟨.throw, some principal⟩, (Reachable.atStart started).after _, refers,
    otherRefers, deleted, (answers_ignore_spelling .delete normalized otherNormalized same _ _ _).1⟩

end Service

end Directory
