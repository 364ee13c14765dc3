import Directory.Proofs.Agent.Moves
import Directory.Proofs.Name.Canonical
import Directory.Proofs.Partition.Relocation
import Directory.Proofs.Partition.TreeMoves

namespace Directory

/-! # Moves that keep the naming step

A move under another superior without a new naming step is carried out exactly if it can be: its
names lead to an entry and a superior of one partition, no delegation stands in the way, the place
is free, and the schema accepts the entry there. -/

/-- The write that such a move comes to. -/
abbrev Partition.Write.plainMove (home superior : Dn) (old : Rdn) (before : Entry) :
    Partition.Write :=
  .relocate (home.child old) { before with dn := superior.child old }

/-- What the move of `home.child old` under `superior` needs before the schema is asked. -/
structure Agent.FindsPlace (agent : Agent) (contexts : NamingContexts) (mode : ReferralMode)
    (given givenSuperior home superior : Dn) (old : Rdn) (partition : Partition) (before : Entry) :
    Prop where
  normalized : agent.schema.normalizeDn given = .ok (home.child old)
  superiorNormalized : agent.schema.normalizeDn givenSuperior = .ok superior
  resolved : contexts.resolve? (home.child old) = some partition
  superiorResolved : contexts.resolve? superior = some partition
  stored : partition.store.find? (home.child old) = some before
  superiorHeld : partition.store.holds superior = true
  notSuffix : (home.child old == partition.suffix) = false
  undelegated : ¬ partition.HandsOver superior
  proceeds : agent.classify .move mode partition (home.child old) = .proceed
  outside : (home.child old).isAncestorOf (superior.child old) = false
  free : (superior.child old == home.child old) = true ∨
    partition.store.holds (superior.child old) = false

/-- The move can be carried out. -/
structure Agent.CanMove (agent : Agent) (contexts : NamingContexts) (mode : ReferralMode)
    (given givenSuperior home superior : Dn) (old : Rdn) (partition : Partition) (before : Entry) :
    Prop extends agent.FindsPlace contexts mode given givenSuperior home superior old partition
      before where
  accepted : agent.schema.validate { before with dn := superior.child old } = .ok ()

theorem Partition.HandsOver.of_agree {left right : Partition} {name : Dn}
    (handsOver : left.HandsOver name) (sameSuffix : right.suffix = left.suffix)
    (agree : ∀ point, point.isAncestorOrSelfOf name = true →
      left.suffix.isAncestorOrSelfOf point = true →
        left.store.find? point = right.store.find? point) : right.HandsOver name := by
  obtain ⟨point, entry, above, owned, stored, referral⟩ := handsOver
  exact ⟨point, entry, above, sameSuffix ▸ owned, (agree point above owned).symm.trans stored,
    referral⟩

namespace Agent

variable {agent : Agent} {contexts : NamingContexts} {mode : ReferralMode} {partition : Partition}
  {given givenSuperior dn home superior : Dn} {old : Rdn} {before : Entry} {deleteOld : Bool}
  {plan : Plan} {response : Response}

/-- Whoever does not manage delegations goes on where an entry is below none and is none that
counts. -/
theorem classify_eq_proceed_iff (unmanaged : mode ≠ .manageDsaIt) {kind : OperationKind} :
    agent.classify kind mode partition dn = .proceed ↔
      (partition.walk dn).delegation? = none ∧ ∃ entry, partition.store.find? dn = some entry ∧
        (agent.policy.honorsTargetReferral kind = true → entry.isReferral = false) := by
  have leads (delegation : Delegation) : delegation.outcome mode dn ≠ .proceed := by
    cases mode <;> simp [Delegation.outcome]
  have unmanages : mode.managesDsaIt = false := by simpa [ReferralMode.managesDsaIt] using unmanaged
  simp only [classify, ReferralPolicy.classify, Outcome.decide, unmanages, Bool.false_eq_true,
    if_false]
  cases (partition.walk dn).delegation? with
  | some delegation => simp [leads]
  | none =>
    cases partition.store.find? dn with
    | none => simp
    | some entry =>
      cases agent.policy.honorsTargetReferral kind <;> cases referral : entry.isReferral <;>
        simp [ReferralPolicy.delegationAt?, Option.filter_some, referral, leads]

theorem isFree_iff {target : Dn} : (!(target == dn) && partition.store.holds target) = false ↔
    (target == dn) = true ∨ partition.store.holds target = false := by
  cases target == dn <;> simp

theorem of_planRelocation_plain {above : List Rdn}
    (planned : agent.planRelocation contexts partition dn old above (some superior) none deleteOld
      mode = .ok plan) :
    (dn == partition.suffix) = false ∧
    (∃ found, destination contexts dn superior = .ok found ∧
      checkDestination partition dn found = .ok ()) ∧
    agent.classify .move mode partition dn = .proceed ∧
    dn.isAncestorOf (superior.child old) = false ∧
    ((superior.child old == dn) = true ∨ partition.store.holds (superior.child old) = false) ∧
    ∃ before, partition.store.find? dn = some before ∧
      agent.schema.validate { before with dn := superior.child old } = .ok () ∧
      plan = ⟨partition.id, .relocate dn { before with dn := superior.child old }⟩ := by
  simp only [planRelocation, bind_eq_ok_iff, refuseIf_eq_ok_iff, Option.getD_some, Option.getD_none,
    mapM_some_eq_ok_iff, renamed] at planned
  obtain ⟨_, other, _, ⟨found, leads, rfl⟩, _, proceeds, planned⟩ := planned
  simp only [bind_eq_ok_iff, refuseIf_eq_ok_iff, isFree_iff] at planned
  obtain ⟨_, fits, _, outside, _, isFree, before, stored, _, accepted, same⟩ := planned
  exact ⟨other, ⟨found, leads, fits⟩, Outcome.result_eq_ok_iff.mp proceeds, outside, isFree,
    before, existing_eq_ok_iff.mp stored, accepted, (Except.ok.inj same).symm⟩

theorem FindsPlace.planMove_eq
    (finds : agent.FindsPlace contexts mode given givenSuperior home superior old partition before)
    (distinct : contexts.HasDistinctIds)
    (named : ∀ partition ∈ contexts.partitions, partition.suffix.isRoot = false)
    (deleteOld : Bool) :
    agent.planMove contexts given (some givenSuperior) none deleteOld mode =
      (agent.schema.validate { before with dn := superior.child old }).map fun _ =>
        ⟨partition.id, .plainMove home superior old before⟩ := by
  have listed := (NamingContexts.mem_of_resolve? finds.resolved).1
  obtain ⟨found, leads, fits⟩ : ∃ found,
      destination contexts (home.child old) superior = .ok found ∧
        checkDestination partition (home.child old) found = .ok () :=
    (exists_destination_iff distinct named listed).mpr
      ⟨finds.superiorResolved, finds.superiorHeld, finds.undelegated⟩
  have covered : covering contexts (home.child old) = .ok partition :=
    covering_eq_ok_iff.mpr finds.resolved
  have proceeds : (agent.classify .move mode partition (home.child old)).result (home.child old) =
      .ok () := Outcome.result_eq_ok_iff.mpr finds.proceeds
  have isFree := isFree_iff.mpr finds.free
  have stored : existing partition (home.child old) = .ok before :=
    existing_eq_ok_iff.mpr finds.stored
  have planned : agent.planRelocation contexts partition (home.child old) old home.rdns
      (some superior) none deleteOld mode =
        (agent.schema.validate { before with dn := superior.child old }).map fun _ =>
          ⟨partition.id, .plainMove home superior old before⟩ := by
    simp only [planRelocation, Option.mapM_some, Option.getD_some, Option.getD_none, renamed,
      refuseIf, bind, Except.bind, Functor.map, Except.map, finds.notSuffix, finds.outside, leads,
      proceeds, fits, isFree, stored, Bool.false_eq_true, if_false]
  simp only [planMove, Option.mapM_some, Option.mapM_none, refuseIf, bind, Except.bind, pure,
    Except.pure, finds.normalized, finds.superiorNormalized, covered, Option.isNone_some,
    Bool.false_and, Bool.false_eq_true, if_false]
  exact planned

theorem planMove_plain_eq_ok_iff (distinct : contexts.HasDistinctIds)
    (named : ∀ partition ∈ contexts.partitions, partition.suffix.isRoot = false)
    (deleteOld : Bool) :
    agent.planMove contexts given (some givenSuperior) none deleteOld mode = .ok plan ↔
      ∃ home superior old partition before,
        agent.CanMove contexts mode given givenSuperior home superior old partition before ∧
        plan = ⟨partition.id, .plainMove home superior old before⟩ := by
  constructor
  · intro planned
    simp only [planMove, bind_eq_ok_iff, refuseIf_eq_ok_iff, mapM_some_eq_ok_iff,
      covering_eq_ok_iff] at planned
    obtain ⟨_, _, dn, normalized, _, ⟨superior, superiorNormalized, rfl⟩, _, noStep, partition,
      resolved, planned⟩ := planned
    cases noStep
    obtain ⟨rdns⟩ := dn
    cases rdns with
    | nil => simp at planned
    | cons old above =>
      obtain ⟨notSuffix, leads, proceeds, outside, free, before, stored, accepted, same⟩ :=
        of_planRelocation_plain planned
      obtain ⟨superiorResolved, held, undelegated⟩ := (exists_destination_iff distinct named
        (NamingContexts.mem_of_resolve? resolved).1).mp leads
      exact ⟨⟨above⟩, superior, old, partition, before, ⟨⟨normalized, superiorNormalized, resolved,
        superiorResolved, stored, held, notSuffix, undelegated, proceeds, outside, free⟩,
        accepted⟩, same⟩
  · rintro ⟨home, superior, old, partition, before, can, rfl⟩
    rw [can.planMove_eq distinct named, can.accepted]
    rfl

theorem CanMove.admits
    (can : agent.CanMove contexts mode given givenSuperior home superior old partition before) :
    partition.admits (.plainMove home superior old before) = .ok () := by
  obtain ⟨_, owned⟩ := NamingContexts.mem_of_resolve? can.resolved
  obtain ⟨_, superiorOwned⟩ := NamingContexts.mem_of_resolve? can.superiorResolved
  have isSuperior : (superior.child old).parent? = some superior := rfl
  have targetOwned : partition.suffix.isAncestorOrSelfOf (superior.child old) = true :=
    Dn.isAncestorOrSelfOf_trans superiorOwned (Dn.parent_isAncestorOrSelfOf isSuperior)
  have held : partition.store.holds (home.child old) = true :=
    Store.holds_iff.mpr ⟨before, can.stored⟩
  have free : ((superior.child old).storageKey != (home.child old).storageKey &&
      partition.store.holds (superior.child old)) = false := by
    rw [Bool.and_eq_false_iff, bne_eq_false_iff_eq]
    exact can.free.imp_left fun same => Dn.storageKey_eq_of_path (Dn.beq_iff_path.mp same)
  have superiors : partition.checkParent (superior.child old) = .ok () :=
    Partition.checkParent_eq_ok_iff.mpr (.inr ⟨superior, rfl, can.superiorHeld⟩)
  simp only [Partition.admits, bind_eq_ok_iff, refuseIf_eq_ok_iff]
  exact ⟨(), Partition.checkOwned_eq_ok_iff.mpr owned, (),
    Partition.checkOwned_eq_ok_iff.mpr targetOwned, (), can.outside, (), by simp [held], (), free,
    superiors⟩

theorem CanMove.exists_performs
    (can : agent.CanMove contexts mode given givenSuperior home superior old partition before)
    (distinct : contexts.HasDistinctIds)
    (named : ∀ partition ∈ contexts.partitions, partition.suffix.isRoot = false)
    (deleteOld : Bool) :
    ∃ after, agent.answer contexts (.move given (some givenSuperior) none deleteOld) mode =
        (.ok .done, after) ∧
      contexts.Performs partition (.plainMove home superior old before) after := by
  have planned := (planMove_plain_eq_ok_iff distinct named deleteOld).mpr
    ⟨home, superior, old, partition, before, can, rfl⟩
  have member := (NamingContexts.mem_of_resolve? can.resolved).1
  have carried : (contexts.perform partition.id (.plainMove home superior old before)).1 =
      .ok () := by
    rw [NamingContexts.perform, distinct.partition?_eq_some member]
    simp only [Partition.perform_of_admits can.admits]
  refine ⟨_, ?_, NamingContexts.performs_of_perform distinct member carried⟩
  rw [answer, planned]
  simp only [commit, carried]
  rfl

theorem canMove_of_answer (distinct : contexts.HasDistinctIds)
    (named : ∀ partition ∈ contexts.partitions, partition.suffix.isRoot = false)
    (answered : (agent.answer contexts (.move given (some givenSuperior) none deleteOld) mode).1 =
      .ok response) :
    ∃ home superior old partition before,
      agent.CanMove contexts mode given givenSuperior home superior old partition before := by
  cases planned : agent.planMove contexts given (some givenSuperior) none deleteOld mode with
  | error refusal => simp [answer, planned, commit] at answered
  | ok plan =>
    obtain ⟨home, superior, old, partition, before, can, _⟩ :=
      (planMove_plain_eq_ok_iff distinct named deleteOld).mp planned
    exact ⟨home, superior, old, partition, before, can⟩

end Agent

end Directory
