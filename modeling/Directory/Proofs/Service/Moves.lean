import Directory.Proofs.Agent.Moves
import Directory.Proofs.Service.Frames

namespace Directory.Service

/-! # Moves within one naming context

A service moves entries only under superiors that the same partition holds and that no delegation
hands over; a superior that one does hand over is refused in every mode.  The store tells by its
key whether it holds the superior, and so by its name where names are plain. -/

variable {config : Config} {service : Service} {contexts : NamingContexts}

theorem Reachable.movesWithin_of_execute (reached : Reachable config service contexts)
    {now : Instant} {context : Context} {given givenSuperior : Dn} {givenRdn? : Option Rdn}
    {deleteOld : Bool} {response : Response}
    (asked : context.request = .move given (some givenSuperior) givenRdn? deleteOld)
    (answered : (service.execute now contexts context).1.1 = .ok response) :
    ∃ dn superior partition entry,
      service.agent.MovesWithin contexts given givenSuperior dn superior partition entry := by
  rcases service.execute_eq_cases now context with ⟨refusal, refused⟩ | ⟨passed, becomes, answers⟩
  · simp [refused] at answered
  · rw [answers] at answered
    have same := becomes.request
    rw [asked] at same
    generalize passed.request = request at same answered
    cases same
    exact Agent.movesWithin_of_answer reached.hasDistinctIds
      (fun partition listed => (reached.isFiled partition listed).1) answered

/-- A move under a superior that is carried out goes to an entry of the same partition, at or
below no delegation and not in the tree that moves; the entry has the superior's name where names
are plain.  A superior at or below a delegation ends every move of a name that could be moved,
in every mode and whatever the state of that name is. -/
theorem moves_stay_within (reached : Reachable config service contexts) :
    (∀ now (context : Context) given givenSuperior givenRdn? deleteOld response,
      context.request = .move given (some givenSuperior) givenRdn? deleteOld →
      (service.execute now contexts context).1.1 = .ok response →
        ∃ dn superior partition entry,
          service.agent.MovesWithin contexts given givenSuperior dn superior partition entry ∧
          (partition.store.HasPlainNames → superior.HasPlainTypes →
            (entry.dn == superior) = true)) ∧
    ∀ given givenSuperior givenRdn? rdn? deleteOld mode dn superior source partition,
      service.agent.schema.normalizeDn given = .ok dn →
      service.agent.schema.normalizeDn givenSuperior = .ok superior →
      givenRdn?.mapM service.agent.schema.normalizeRdn = .ok rdn? →
      contexts.resolve? dn = some source → (dn == source.suffix) = false →
      contexts.resolve? superior = some partition → partition.HandsOver superior →
        service.agent.answer contexts (.move given (some givenSuperior) givenRdn? deleteOld) mode =
          (.error (.affectsMultipleDsas dn.text), contexts) := by
  constructor
  · intro now context given givenSuperior givenRdn? deleteOld response asked answered
    obtain ⟨dn, superior, partition, entry, within⟩ :=
      reached.movesWithin_of_execute asked answered
    refine ⟨dn, superior, partition, entry, within, fun plain superiorPlain => ?_⟩
    have listed := (NamingContexts.mem_of_resolve? within.resolved).1
    have filed := (reached.isFiled partition listed).2
    exact Dn.beq_iff_path.mpr ((filed.find?_eq_some_iff plain superiorPlain).mp within.stored).2
  · intro given givenSuperior givenRdn? rdn? deleteOld mode dn superior source partition normalized
      superiorNormalized rdnNormalized resolved other superiorResolved delegated
    exact Agent.answer_move_of_handsOver (fun held listed => (reached.isFiled held listed).1)
      normalized superiorNormalized rdnNormalized resolved other superiorResolved delegated
      deleteOld mode

/-- A tree moves under its neighbour, and nothing moves to below the delegation beside it. -/
theorem moves_stay_within_beside_delegation :
    ∃ (config : Config) (service : Service) (contexts : NamingContexts)
      (given neighbour delegated dn superior below : Dn) (partition : Partition) (entry : Entry),
      Reachable config service contexts ∧
      (service.execute ⟨2024, 1, 1, 0, 0, 0⟩ contexts
        ⟨.move given (some neighbour) none false, .throw, some given⟩).1.1 = .ok .done ∧
      service.agent.MovesWithin contexts given neighbour dn superior partition entry ∧
      partition.store.HasPlainNames ∧ superior.HasPlainTypes ∧ (entry.dn == superior) = true ∧
      service.agent.schema.normalizeDn delegated = .ok below ∧ partition.HandsOver below ∧
      service.agent.answer contexts (.move given (some delegated) none false) .manageDsaIt =
        (.error (.affectsMultipleDsas "ou=b,o=a"), contexts) := by
  have run : (do
      let given ← Dn.parse "ou=b,o=a"
      let leaf ← Dn.parse "cn=c,ou=b,o=a"
      let neighbour ← Dn.parse "OU=d,o=a"
      let point ← Dn.parse "ou=r,o=a"
      let delegated ← Dn.parse "ou=e,ou=r,o=a"
      let built ← ofConfig
        (Config.single "p" "o=a" [("objectClass", ["organization"]), ("o", ["a"])])
      let contexts := built.1.after built.2 [
        .seed (.ofValues given [("objectClass", ["organizationalUnit"]), ("ou", ["b"])]),
        .seed (.ofValues leaf [("objectClass", ["person"]), ("cn", ["c"]), ("sn", ["s"])]),
        .seed (.ofValues neighbour [("objectClass", ["organizationalUnit"]), ("ou", ["d"])]),
        .seed (.ofValues point [("objectClass", ["referral", "extensibleObject"]), ("ou", ["r"]),
          ("ref", ["ldap://h/o=b"])])]
      let dn ← built.1.agent.schema.normalizeDn given
      let superior ← built.1.agent.schema.normalizeDn neighbour
      let below ← built.1.agent.schema.normalizeDn delegated
      let partition ← Agent.covering contexts dn
      let belowPartition ← Agent.covering contexts below
      let entry ← Agent.existing partition point
      Except.ok (decide (
        (built.1.execute ⟨2024, 1, 1, 0, 0, 0⟩ contexts
          ⟨.move given (some neighbour) none false, .throw, some given⟩).1.1 = .ok .done ∧
        built.1.agent.schema.HasPlainNames ∧ (dn == partition.suffix) = false ∧
        dn.text = "ou=b,o=a" ∧ belowPartition = partition ∧
        point.isAncestorOrSelfOf below = true ∧
        partition.suffix.isAncestorOrSelfOf point = true ∧ entry.isReferral = true))) =
        Except.ok (ε := Error) true := by
    decide +kernel
  obtain ⟨given, _, run⟩ := bind_eq_ok_iff.mp run
  obtain ⟨leaf, _, run⟩ := bind_eq_ok_iff.mp run
  obtain ⟨neighbour, _, run⟩ := bind_eq_ok_iff.mp run
  obtain ⟨point, _, run⟩ := bind_eq_ok_iff.mp run
  obtain ⟨delegated, _, run⟩ := bind_eq_ok_iff.mp run
  obtain ⟨⟨service, start⟩, started, run⟩ := bind_eq_ok_iff.mp run
  obtain ⟨dn, normalized, run⟩ := bind_eq_ok_iff.mp run
  obtain ⟨superior, superiorNormalized, run⟩ := bind_eq_ok_iff.mp run
  obtain ⟨below, belowNormalized, run⟩ := bind_eq_ok_iff.mp run
  obtain ⟨partition, covered, run⟩ := bind_eq_ok_iff.mp run
  obtain ⟨belowPartition, belowCovered, run⟩ := bind_eq_ok_iff.mp run
  obtain ⟨entry, found, run⟩ := bind_eq_ok_iff.mp run
  obtain ⟨answered, named, other, written, rfl, above, owned, referral⟩ :=
    of_decide_eq_true (Except.ok.inj run)
  have resolved := Agent.covering_eq_ok_iff.mp covered
  have handsOver : belowPartition.HandsOver below :=
    ⟨point, entry, above, owned, Agent.existing_eq_ok_iff.mp found, referral⟩
  have reached := (Reachable.atStart started).after [
    .seed (.ofValues given [("objectClass", ["organizationalUnit"]), ("ou", ["b"])]),
    .seed (.ofValues leaf [("objectClass", ["person"]), ("cn", ["c"]), ("sn", ["s"])]),
    .seed (.ofValues neighbour [("objectClass", ["organizationalUnit"]), ("ou", ["d"])]),
    .seed (.ofValues point [("objectClass", ["referral", "extensibleObject"]), ("ou", ["r"]),
      ("ref", ["ldap://h/o=b"])])]
  obtain ⟨moves, refuses⟩ := moves_stay_within reached
  obtain ⟨_, _, _, top, within, sameName⟩ := moves _
    ⟨.move given (some neighbour) none false, .throw, some given⟩ _ _ _ _ _ rfl answered
  obtain rfl := Except.ok.inj (normalized.symm.trans within.normalized)
  obtain rfl := Except.ok.inj (superiorNormalized.symm.trans within.superiorNormalized)
  obtain rfl := Option.some.inj (resolved.symm.trans within.resolved)
  have plain := reached.hasPlainNames named _ (Agent.mem_of_covering covered)
  have superiorPlain := Schema.hasPlainTypes_of_normalizeDn named superiorNormalized
  have refused := refuses given delegated none none false .manageDsaIt _ _ _ _ normalized
    belowNormalized rfl resolved other (Agent.covering_eq_ok_iff.mp belowCovered) handsOver
  rw [written] at refused
  exact ⟨_, service, _, given, neighbour, delegated, dn, superior, below, _, top, reached, answered,
    within, plain, superiorPlain, sameName plain superiorPlain, belowNormalized, handsOver, refused⟩

/-- The key of `1.2.3=b,o=a` is that of `cn=b,x=1,o=a` where the type `1.2.3` is called `x=1,cn`,
and an entry moves under the one name where only the other is stored. -/
theorem moved_under_absent_superior :
    ∃ (config : Config) (service : Service) (contexts : NamingContexts) (context : Context)
      (given givenSuperior superior : Dn),
      Reachable config service contexts ∧
      context.request = .move given (some givenSuperior) none false ∧
      service.agent.schema.normalizeDn givenSuperior = .ok superior ∧
      (service.execute ⟨2024, 1, 1, 0, 0, 0⟩ contexts context).1.1 = .ok .done ∧
      ∀ partition ∈ contexts.partitions, ∀ entry ∈ partition.store.values,
        (entry.dn == superior) = false := by
  have run : (do
      let principal ← Dn.parse "o=a"
      let odd ← Dn.parse "1.2.3=b,o=a"
      let given ← Dn.parse "ou=c,o=a"
      let givenSuperior ← Dn.parse "cn=b,x=1,o=a"
      let built ← ofConfig
        (.oddlyNamed [("objectClass", ["organization"]), ("o", ["a"])])
      let contexts := built.1.after built.2 [
        .seed (.ofValues odd [("objectClass", ["organization", "extensibleObject"]),
          ("1.2.3", ["b"]), ("o", ["b"])]),
        .seed (.ofValues given [("objectClass", ["organizationalUnit"]), ("ou", ["c"])])]
      let superior ← built.1.agent.schema.normalizeDn givenSuperior
      Except.ok (decide (
        (built.1.execute ⟨2024, 1, 1, 0, 0, 0⟩ contexts
          ⟨.move given (some givenSuperior) none false, .throw, some principal⟩).1.1 = .ok .done ∧
        ∀ partition ∈ contexts.partitions, ∀ entry ∈ partition.store.values,
          (entry.dn == superior) = false))) = Except.ok (ε := Error) true := by
    decide +kernel
  obtain ⟨principal, _, run⟩ := bind_eq_ok_iff.mp run
  obtain ⟨odd, _, run⟩ := bind_eq_ok_iff.mp run
  obtain ⟨given, _, run⟩ := bind_eq_ok_iff.mp run
  obtain ⟨givenSuperior, _, run⟩ := bind_eq_ok_iff.mp run
  obtain ⟨⟨service, start⟩, started, run⟩ := bind_eq_ok_iff.mp run
  obtain ⟨superior, normalized, run⟩ := bind_eq_ok_iff.mp run
  obtain ⟨answered, absent⟩ := of_decide_eq_true (Except.ok.inj run)
  exact ⟨_, service, _, ⟨.move given (some givenSuperior) none false, .throw, some principal⟩,
    given, givenSuperior, superior, (Reachable.atStart started).after _, rfl, normalized, answered,
    absent⟩

end Directory.Service
