import Directory.Proofs.Agent.Modes
import Directory.Proofs.Service.Refusals
import Directory.Proofs.Service.Trees

namespace Directory.Service

/-! # Sessions and their modes

Whatever a session asks for, it is answered in the words of its mode; and unless it manages
delegations, nothing is done for it on a name below one, except that an add may be. -/

variable {config : Config} {service : Service} {contexts : NamingContexts}

theorem speaks_execute (service : Service) (now : Instant) (contexts : NamingContexts)
    (context : Context) : context.mode.Speaks (service.execute now contexts context).1.1 := by
  rcases service.execute_eq_cases now context with ⟨refusal, refused⟩ | ⟨passed, becomes, answers⟩
  · have answered := congrArg Prod.fst (refused contexts)
    rw [answered]
    exact (service.refusesOnly_execute now contexts context refusal answered).speaks
  · rw [answers, ← becomes.mode]
    exact service.agent.speaks_answer contexts passed.request passed.mode

theorem speaks_run (service : Service) (session : Session) (now : Instant)
    (contexts : NamingContexts) (command : Command) :
    session.mode.Speaks (service.run session now contexts command).1 := by
  unfold run
  cases read : command.request with
  | error refusal => exact Agent.speaks_of_fault (command.hasOnlyFaults_request refusal read)
  | ok request =>
    exact service.speaks_execute now contexts ⟨request, session.mode, session.principal?⟩

theorem Reachable.refused_of_delegatesAt (reached : Reachable config service contexts)
    {context : Context} (unmanaged : context.mode ≠ .manageDsaIt)
    (other : context.request.kind ≠ .add) {dn point : Dn} {partition : Partition} {entry : Entry}
    (normalized : service.agent.schema.normalizeDn context.request.target = .ok dn)
    (resolved : contexts.resolve? dn = some partition)
    (delegates : partition.DelegatesAt dn point entry) (now : Instant) :
    ∃ refusal, (service.execute now contexts context).1.1 = .error refusal := by
  have named := (reached.isFiled partition (NamingContexts.mem_of_resolve? resolved).1).1
  rcases service.execute_eq_cases now context with ⟨refusal, refused⟩ | ⟨passed, becomes, answers⟩
  · exact ⟨refusal, congrArg Prod.fst (refused contexts)⟩
  · rw [answers]
    refine Agent.refused_of_delegatesAt named (becomes.mode ▸ unmanaged) ?_ ?_ resolved delegates
    · rwa [becomes.request.kind_eq]
    · rwa [becomes.request.target_eq]

/-- Managing delegations, nobody is told of one; otherwise a caller is either referred and given
references, or told that a result is partial, as the mode has it, and nothing but an add comes to
anything on a name below a stored delegation. -/
theorem answers_keep_to_mode (reached : Reachable config service contexts) :
    (∀ now (context : Context),
      context.mode.Speaks (service.execute now contexts context).1.1) ∧
    (∀ (session : Session) now command,
      session.mode.Speaks (service.run session now contexts command).1) ∧
    ∀ now (context : Context) dn partition point entry,
      context.mode ≠ .manageDsaIt → context.request.kind ≠ .add →
      service.agent.schema.normalizeDn context.request.target = .ok dn →
      contexts.resolve? dn = some partition → partition.DelegatesAt dn point entry →
        ∃ refusal, (service.execute now contexts context).1.1 = .error refusal :=
  ⟨fun now context => service.speaks_execute now contexts context,
    fun session now command => service.speaks_run session now contexts command,
    fun now _ _ _ _ _ unmanaged other normalized resolved delegates =>
      reached.refused_of_delegatesAt unmanaged other normalized resolved delegates now⟩

/-- An entry kept below a delegation: shown to who manages delegations, and to nobody else. -/
theorem answers_keep_to_mode_below_delegation :
    ∃ (config : Config) (service : Service) (contexts : NamingContexts) (given dn point : Dn)
      (partition : Partition) (entry : Entry),
      Reachable config service contexts ∧
      service.agent.schema.normalizeDn given = .ok dn ∧ contexts.resolve? dn = some partition ∧
      partition.DelegatesAt dn point entry ∧ partition.store.holds dn = true ∧
      (service.execute ⟨2024, 1, 1, 0, 0, 0⟩ contexts ⟨.lookup given, .throw, none⟩).1.1 =
        .error (.referral ["ldap://h/CN=x,o=b"]) ∧
      ReferralMode.throw.Speaks
        (service.execute ⟨2024, 1, 1, 0, 0, 0⟩ contexts ⟨.lookup given, .throw, none⟩).1.1 ∧
      ReferralMode.manageDsaIt.Speaks
        (service.run ⟨.manageDsaIt, none⟩ ⟨2024, 1, 1, 0, 0, 0⟩ contexts
          (.search "o=a" .subtree "(cn=*)")).1 ∧
      ∃ refusal, (service.execute ⟨2024, 1, 1, 0, 0, 0⟩ contexts
        ⟨.delete given, .ignore, some given⟩).1.1 = .error refusal := by
  have run : (do
      let delegation ← Dn.parse "ou=r,o=a"
      let given ← Dn.parse "CN=x,ou=r,o=a"
      let built ← ofConfig
        (Config.single "p" "o=a" [("objectClass", ["organization"]), ("o", ["a"])])
      let contexts := built.1.after built.2 [
        .seed (.ofValues delegation [("objectClass", ["referral", "extensibleObject"]),
          ("ou", ["r"]), ("ref", ["ldap://h/o=b"])]),
        .seed (.ofValues given [("objectClass", ["person"]), ("cn", ["x"]), ("sn", ["x"])])]
      let dn ← built.1.agent.schema.normalizeDn given
      let partition ← Agent.covering contexts dn
      let entry ← Agent.existing partition delegation
      Except.ok (decide (delegation.isAncestorOf dn = true ∧
        partition.suffix.isAncestorOrSelfOf delegation = true ∧ entry.isReferral = true ∧
        partition.store.holds dn = true ∧
        (built.1.execute ⟨2024, 1, 1, 0, 0, 0⟩ contexts ⟨.lookup given, .throw, none⟩).1.1 =
          .error (.referral ["ldap://h/CN=x,o=b"])))) =
        Except.ok (ε := Error) true := by
    decide +kernel
  obtain ⟨delegation, _, run⟩ := bind_eq_ok_iff.mp run
  obtain ⟨given, _, run⟩ := bind_eq_ok_iff.mp run
  obtain ⟨⟨service, start⟩, started, run⟩ := bind_eq_ok_iff.mp run
  obtain ⟨dn, normalized, run⟩ := bind_eq_ok_iff.mp run
  obtain ⟨partition, covered, run⟩ := bind_eq_ok_iff.mp run
  obtain ⟨entry, found, run⟩ := bind_eq_ok_iff.mp run
  obtain ⟨above, owned, referral, held, refers⟩ := of_decide_eq_true (Except.ok.inj run)
  have reached := (Reachable.atStart started).after [
    .seed (.ofValues delegation [("objectClass", ["referral", "extensibleObject"]),
      ("ou", ["r"]), ("ref", ["ldap://h/o=b"])]),
    .seed (.ofValues given [("objectClass", ["person"]), ("cn", ["x"]), ("sn", ["x"])])]
  have resolved := Agent.covering_eq_ok_iff.mp covered
  have delegates : partition.DelegatesAt dn delegation entry :=
    ⟨above, owned, Agent.existing_eq_ok_iff.mp found, referral⟩
  obtain ⟨executes, runs, refuses⟩ := answers_keep_to_mode reached
  exact ⟨_, service, _, given, dn, delegation, partition, entry, reached, normalized, resolved,
    delegates, held, refers, executes _ ⟨.lookup given, .throw, none⟩,
    runs ⟨.manageDsaIt, none⟩ _ _,
    refuses _ ⟨.delete given, .ignore, some given⟩ _ _ _ _ nofun nofun normalized resolved
      delegates⟩

end Directory.Service
