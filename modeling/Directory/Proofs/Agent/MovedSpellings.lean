import Directory.Proofs.Agent.Managed
import Directory.Proofs.Agent.PlainMoves
import Directory.Proofs.Agent.Spellings

namespace Directory

/-! # Plain moves under other spellings

A move that keeps the naming step takes it as it was written.  Where it leads to is found alike for
every spelling of the name; the schema alone reads the value of the step as it stands. -/

/-- No refusal of the computation is about an entry that does not conform. -/
abbrev SkipsConformance {α : Type} (computed : Except Error α) : Prop :=
  RefusesOnly (fun refusal => refusal.isNonconformance = false) computed

theorem Error.isNonconformance_of_isMisplacement (refusal : Error)
    (misplacement : refusal.isMisplacement = true) : refusal.isNonconformance = false := by
  cases refusal <;> first | rfl | contradiction

theorem Schema.skipsConformance_normalizeDn (schema : Schema) (given : Dn) :
    SkipsConformance (schema.normalizeDn given) := by
  have step (rdn : Rdn) : SkipsConformance (schema.normalizeRdn rdn) := by
    unfold normalizeRdn
    split
    · exact .error rfl
    · exact .ok _
  exact (RefusesOnly.mapM step given.rdns).bind fun _ _ => .ok _

theorem Outcome.skipsConformance_result (outcome : Outcome) (dn : Dn) :
    SkipsConformance (outcome.result dn) := by
  cases outcome <;> first | exact .ok _ | exact .error rfl

theorem Outcome.Alike.eq_proceed {ours : Outcome} (alike : ours.Alike .proceed) :
    ours = .proceed := by
  cases alike
  rfl

/-- If the refusal is about conformance, the schema gives it for the entry under a name with the
step. -/
def Schema.AccountsFor (schema : Schema) (before : Entry) (step : Rdn) (refusal : Error) : Prop :=
  refusal.isNonconformance = true →
    ∃ superior : Dn, schema.validate { before with dn := superior.child step } = .error refusal

namespace Agent

variable {agent : Agent} {contexts : NamingContexts} {mode : ReferralMode} {partition : Partition}
  {given other givenSuperior dn home otherHome superior : Dn} {old step : Rdn} {above : List Rdn}
  {before : Entry} {deleteOld : Bool} {response : Response}

theorem FindsPlace.respelled
    (finds : agent.FindsPlace contexts mode given givenSuperior home superior old partition before)
    (normalized : agent.schema.normalizeDn other = .ok (otherHome.child step))
    (same : (otherHome.child step).path = (home.child old).path) :
    agent.FindsPlace contexts mode other givenSuperior otherHome superior step partition
      before := by
  have target : (superior.child step).path = (superior.child old).path := by
    rw [Dn.path_child, Dn.path_child] at same ⊢
    rw [(List.cons.inj same).1]
  have stays : (superior.child step == otherHome.child step) =
      (superior.child old == home.child old) := by
    rw [Bool.eq_iff_iff, Dn.beq_iff_path, Dn.beq_iff_path, target, same]
  refine {
    normalized
    superiorNormalized := finds.superiorNormalized
    resolved := (contexts.resolve?_eq_of_path same).trans finds.resolved
    superiorResolved := finds.superiorResolved
    stored := (partition.store.find?_eq_of_path same).trans finds.stored
    superiorHeld := finds.superiorHeld
    notSuffix := ?_
    undelegated := finds.undelegated
    proceeds := ?_
    outside := ?_
    free := ?_ }
  · rw [← finds.notSuffix, Bool.eq_iff_iff, Dn.beq_iff_path, Dn.beq_iff_path, same]
  · have alike := agent.classify_alike .move mode partition same
    rw [finds.proceeds] at alike
    exact alike.eq_proceed
  · rw [← finds.outside, Bool.eq_iff_iff, Dn.isAncestorOf_iff, Dn.isAncestorOf_iff,
      Dn.isAncestorOrSelfOf_iff, Dn.isAncestorOrSelfOf_iff, same, target]
  · rw [stays, partition.store.holds_eq_of_path target]
    exact finds.free

theorem Finds.findsPlace_of_answer
    (finds : agent.Finds contexts given (home.child old) partition before)
    (distinct : contexts.HasDistinctIds)
    (named : ∀ partition ∈ contexts.partitions, partition.suffix.isRoot = false)
    (otherNormalized : agent.schema.normalizeDn other = .ok dn)
    (same : dn.path = (home.child old).path)
    (answered : (agent.answer contexts (.move other (some givenSuperior) none deleteOld) mode).1 =
      .ok response) :
    ∃ superior, agent.FindsPlace contexts mode given givenSuperior home superior old partition
      before := by
  obtain ⟨_, superior, _, _, _, can⟩ := canMove_of_answer distinct named answered
  obtain rfl := Except.ok.inj (otherNormalized.symm.trans can.normalized)
  have place := can.respelled finds.normalized same.symm
  obtain rfl := Option.some.inj (finds.resolved.symm.trans place.resolved)
  obtain rfl := Option.some.inj (finds.stored.symm.trans place.stored)
  exact ⟨superior, place⟩

theorem Finds.accepted_of_answer
    (finds : agent.Finds contexts given (home.child old) partition before)
    (distinct : contexts.HasDistinctIds)
    (named : ∀ partition ∈ contexts.partitions, partition.suffix.isRoot = false)
    (answered : (agent.answer contexts (.move given (some givenSuperior) none deleteOld) mode).1 =
      .ok response) :
    ∃ superior : Dn, agent.schema.validate { before with dn := superior.child old } = .ok () := by
  obtain ⟨_, superior, _, _, _, can⟩ := canMove_of_answer distinct named answered
  have sameName := Except.ok.inj (finds.normalized.symm.trans can.normalized)
  have resolved := can.resolved
  have stored := can.stored
  rw [← sameName] at resolved stored
  obtain rfl := Option.some.inj (finds.resolved.symm.trans resolved)
  obtain rfl := Option.some.inj (finds.stored.symm.trans stored)
  obtain ⟨rfl, _⟩ := List.cons.inj (congrArg Dn.rdns sameName)
  exact ⟨superior, can.accepted⟩

theorem skipsConformance_destination (superior : Dn) :
    SkipsConformance (destination contexts dn superior) := by
  unfold destination
  split
  · exact .error rfl
  · dsimp only
    split
    · exact .error rfl
    · exact .ok _

theorem accounts_of_skips {schema : Schema} {α : Type} {computed : Except Error α}
    (skips : SkipsConformance computed) :
    RefusesOnly (schema.AccountsFor before old) computed := by
  refine skips.mono fun refusal other nonconformance => ?_
  rw [other] at nonconformance
  contradiction

/-- A plain move is refused over conformance only if the schema refuses the entry with the step as
it was written. -/
theorem accountsFor_planMove (finds : agent.Finds contexts given dn partition before)
    (steps : dn.rdns = old :: above) : RefusesOnly (agent.schema.AccountsFor before old)
      (agent.planMove contexts given (some givenSuperior) none deleteOld mode) := by
  have covered : covering contexts dn = .ok partition := covering_eq_ok_iff.mpr finds.resolved
  have stored : existing partition dn = .ok before := existing_eq_ok_iff.mpr finds.stored
  refine .bind (accounts_of_skips (.refuseIf rfl)) fun _ _ => ?_
  rw [finds.normalized]
  refine .bind (.ok dn) fun name isName =>
    .bind (accounts_of_skips (.optionMapM agent.schema.skipsConformance_normalizeDn _))
      fun superior? isSuperior => .bind (.ok none) fun rdn? isStep => ?_
  cases isName
  cases isStep
  obtain ⟨superior, _, rfl⟩ := mapM_some_eq_ok_iff.mp isSuperior
  rw [covered, steps]
  refine .bind (.ok partition) fun source isSource => ?_
  cases isSource
  refine .bind (accounts_of_skips (.refuseIf rfl)) fun _ _ =>
    .bind (accounts_of_skips (.optionMapM skipsConformance_destination _)) fun found? leads =>
      .bind (accounts_of_skips (Outcome.skipsConformance_result _ dn)) fun _ _ => ?_
  obtain ⟨found, _, rfl⟩ := mapM_some_eq_ok_iff.mp leads
  refine .bind (accounts_of_skips (.bind (.refuseIf rfl) fun _ _ => .refuseIf rfl)) fun _ _ =>
    .bind (accounts_of_skips (.refuseIf rfl)) fun _ _ =>
      .bind (accounts_of_skips (.refuseIf rfl)) fun _ _ => ?_
  rw [stored]
  refine .bind (.ok before) fun entry isStored => ?_
  cases isStored
  exact .bind (fun refusal refused _ => ⟨superior, refused⟩) fun _ _ => .ok _

theorem accountsFor_answer (finds : agent.Finds contexts given dn partition before)
    (steps : dn.rdns = old :: above) : RefusesOnly (agent.schema.AccountsFor before old)
      (agent.answer contexts (.move given (some givenSuperior) none deleteOld) mode).1 := by
  have planned : RefusesOnly (agent.schema.AccountsFor before old)
      (agent.planMove contexts given (some givenSuperior) none deleteOld mode) :=
    accountsFor_planMove finds steps
  rw [answer]
  cases plan : agent.planMove contexts given (some givenSuperior) none deleteOld mode with
  | error refusal =>
    rw [plan] at planned
    exact .error (planned refusal rfl)
  | ok made =>
    have places := contexts.checksPlacement_perform made.partition made.write
    exact (accounts_of_skips (places.mono Error.isNonconformance_of_isMisplacement)).map _

section Spelled

variable (finds : agent.Finds contexts given (home.child old) partition before)
  (distinct : contexts.HasDistinctIds)
  (named : ∀ partition ∈ contexts.partitions, partition.suffix.isRoot = false)
include finds distinct named

/-- Where the schema accepts the step as it was written, the move is done if it is done under
another spelling. -/
theorem Finds.answer_of_accepted
    (accepted : ∀ superior : Dn,
      agent.schema.validate { before with dn := superior.child old } = .ok ()) :
    (∀ refusal,
      (agent.answer contexts (.move given (some givenSuperior) none deleteOld) mode).1 =
        .error refusal → refusal.isNonconformance = false) ∧
    (agent.schema.normalizeDn other = .ok dn → dn.path = (home.child old).path →
      (agent.answer contexts (.move other (some givenSuperior) none deleteOld) mode).1 =
        .ok .done →
      (agent.answer contexts (.move given (some givenSuperior) none deleteOld) mode).1 =
        .ok .done) := by
  constructor
  · intro refusal refused
    by_contra nonconformance
    obtain ⟨superior, faulty⟩ := accountsFor_answer finds rfl refusal refused
      (by simpa using nonconformance)
    cases faulty.symm.trans (accepted superior)
  · intro otherNormalized same answered
    obtain ⟨superior, place⟩ :=
      finds.findsPlace_of_answer distinct named otherNormalized same answered
    have can : agent.CanMove contexts mode given givenSuperior home superior old partition before :=
      ⟨place, accepted superior⟩
    obtain ⟨_, moves, _⟩ := can.exists_performs distinct named deleteOld
    rw [moves]

/-- Where the schema refuses the step as it was written, so is the move. -/
theorem Finds.answer_of_refused {fault : Error}
    (refused : ∀ superior : Dn,
      agent.schema.validate { before with dn := superior.child old } = .error fault) :
    (∃ refusal,
      (agent.answer contexts (.move given (some givenSuperior) none deleteOld) mode).1 =
        .error refusal ∧ (refusal.isNonconformance = true → refusal = fault)) ∧
    (agent.schema.normalizeDn other = .ok dn → dn.path = (home.child old).path →
      (agent.answer contexts (.move other (some givenSuperior) none deleteOld) mode).1 =
        .ok .done →
      (agent.answer contexts (.move given (some givenSuperior) none deleteOld) mode).1 =
        .error fault) := by
  constructor
  · cases outcome : (agent.answer contexts (.move given (some givenSuperior) none deleteOld)
        mode).1 with
    | ok response =>
      obtain ⟨superior, accepted⟩ := finds.accepted_of_answer distinct named outcome
      cases accepted.symm.trans (refused superior)
    | error refusal =>
      refine ⟨refusal, rfl, fun nonconformance => ?_⟩
      obtain ⟨superior, faulty⟩ := accountsFor_answer finds rfl refusal outcome nonconformance
      exact Except.error.inj (faulty.symm.trans (refused superior))
  · intro otherNormalized same answered
    obtain ⟨superior, place⟩ :=
      finds.findsPlace_of_answer distinct named otherNormalized same answered
    rw [answer, place.planMove_eq distinct named, refused superior]
    rfl

end Spelled

end Agent

end Directory
