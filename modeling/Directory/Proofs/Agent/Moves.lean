import Directory.Proofs.Agent.Writes
import Directory.Proofs.Partition.Superiors
import Directory.Proofs.Referral.NearestDelegation

namespace Directory

/-! # Where entries are moved to

A move under a superior is settled by the superior first: whatever lies at or below a delegation
belongs to other servers, whoever asks.  What is left are superiors that the entry's own partition
holds, outside the tree that is moved. -/

/-- A stored entry at or above the name hands its tree over. -/
def Partition.HandsOver (partition : Partition) (name : Dn) : Prop :=
  ∃ point entry, point.isAncestorOrSelfOf name = true ∧
    partition.suffix.isAncestorOrSelfOf point = true ∧
    partition.store.find? point = some entry ∧ entry.isReferral = true

/-- What there is to a move of `given` under a superior: the names in canonical form, and the
partition and the entry that they are found at. -/
structure Agent.MovesWithin (agent : Agent) (contexts : NamingContexts) (given givenSuperior : Dn)
    (dn superior : Dn) (partition : Partition) (entry : Entry) : Prop where
  normalized : agent.schema.normalizeDn given = .ok dn
  superiorNormalized : agent.schema.normalizeDn givenSuperior = .ok superior
  resolved : contexts.resolve? dn = some partition
  superiorResolved : contexts.resolve? superior = some partition
  stored : partition.store.find? superior = some entry
  undelegated : ¬ partition.HandsOver superior
  notSuffix : (dn == partition.suffix) = false
  outside : dn.isAncestorOrSelfOf superior = false

theorem Partition.classifyDestination_eq_iff {partition : Partition} {name : Dn}
    (named : partition.suffix.isRoot = false)
    (owned : partition.suffix.isAncestorOrSelfOf name = true) :
    ReferralPolicy.classifyDestination (partition.store.find? name) (partition.walk name) =
      .affectsMultipleNamingContexts ↔ partition.HandsOver name := by
  have settled : ReferralPolicy.classifyDestination (partition.store.find? name)
      (partition.walk name) = .affectsMultipleNamingContexts ↔
        ((partition.walk name).isDelegated || (partition.store.find? name).any Entry.isReferral) =
          true := by
    unfold ReferralPolicy.classifyDestination
    split
    · next delegated => simp [delegated]
    · next undelegated => split <;> simp [undelegated]
  rw [settled, Bool.or_eq_true, AncestorWalk.isDelegated, Option.isSome_iff_exists,
    Option.any_eq_true]
  constructor
  · rintro (⟨delegation, ended⟩ | ⟨entry, stored, referral⟩)
    · obtain ⟨entry, nearest, _⟩ := nearest_of_walk named ended
      exact ⟨_, entry, (Dn.isAncestorOf_iff.mp nearest.above).1, nearest.owned, nearest.stored,
        nearest.isReferral⟩
    · exact ⟨name, entry, Dn.isAncestorOrSelfOf_refl name, owned, stored, referral⟩
  · rintro ⟨point, entry, above, pointOwned, stored, referral⟩
    by_cases same : point.path = name.path
    · exact .inr ⟨entry, by rw [← Store.find?_eq_of_path partition.store same, stored], referral⟩
    · have delegates : partition.DelegatesAt name point entry :=
        ⟨Dn.isAncestorOf_iff.mpr ⟨above, same⟩, pointOwned, stored, referral⟩
      exact .inl (delegates.exists_walk named)

namespace Agent

variable {agent : Agent} {contexts : NamingContexts} {source : Partition} {dn superior : Dn}
  {mode : ReferralMode}

theorem destination_eq_ok {found : Destination}
    (leads : destination contexts dn superior = .ok found) :
    found.superior = superior ∧ contexts.existingSuperior? superior = some found.found ∧
      ReferralPolicy.classifyDestination (found.found.partition.store.find? superior)
        (found.found.partition.walk superior) ≠ .affectsMultipleNamingContexts := by
  unfold destination at leads
  split at leads
  · contradiction
  · next held exists? =>
    dsimp only at leads
    split at leads
    · contradiction
    · next outcome =>
      cases leads
      exact ⟨rfl, exists?, outcome⟩

theorem destination_of_handsOver {partition : Partition} (named : partition.suffix.isRoot = false)
    (resolved : contexts.resolve? superior = some partition)
    (delegated : partition.HandsOver superior) :
    destination contexts dn superior = .error (.affectsMultipleDsas dn.text) := by
  have owned := (NamingContexts.mem_of_resolve? resolved).2
  have settled := (Partition.classifyDestination_eq_iff named owned).mpr delegated
  simp only [destination, NamingContexts.existingSuperior?, resolved, Option.map_some, settled]

/-- A destination is an undelegated superior that the partition holds. -/
theorem exists_destination_iff (distinct : contexts.HasDistinctIds)
    (named : ∀ partition ∈ contexts.partitions, partition.suffix.isRoot = false)
    (member : source ∈ contexts.partitions) :
    (∃ found, destination contexts dn superior = .ok found ∧
        checkDestination source dn found = .ok ()) ↔
      contexts.resolve? superior = some source ∧ source.store.holds superior = true ∧
        ¬ source.HandsOver superior := by
  constructor
  · rintro ⟨found, leads, fits⟩
    obtain ⟨rfl, exists?, undelegated⟩ := destination_eq_ok leads
    simp only [checkDestination, bind_eq_ok_iff, refuseIf_eq_ok_iff, decide_eq_false_iff_not,
      Nat.not_lt, bne_eq_false_iff_eq] at fits
    obtain ⟨_, whole, same⟩ := fits
    have resolved := NamingContexts.resolve?_of_existingSuperior? exists?
    obtain ⟨listed, owned⟩ := NamingContexts.mem_of_resolve? resolved
    obtain rfl := distinct.eq_of_id listed member same
    have superiorNamed := Dn.isRoot_eq_false_of_lies owned (named _ listed)
    exact ⟨resolved, NamingContexts.holds_of_existingSuperior? exists? superiorNamed whole,
      mt (Partition.classifyDestination_eq_iff (named _ listed) owned).mpr undelegated⟩
  · rintro ⟨resolved, held, undelegated⟩
    obtain ⟨listed, owned⟩ := NamingContexts.mem_of_resolve? resolved
    have isOpen := mt (Partition.classifyDestination_eq_iff (named _ listed) owned).mp undelegated
    refine ⟨⟨superior, ⟨superior.length, source⟩⟩, ?_, ?_⟩
    · rw [destination, NamingContexts.existingSuperior?_of_holds resolved held]
      dsimp only
      split
      · next delegated => exact absurd delegated isOpen
      · rfl
    · simp [checkDestination, refuseIf, bind, Except.bind]

theorem relocates_of_planRelocation {old : Rdn} {above : List Rdn} {rdn? : Option Rdn}
    {deleteOld : Bool} {plan : Plan}
    (planned : agent.planRelocation contexts source dn old above (some superior) rdn? deleteOld
      mode = .ok plan) :
    (dn == source.suffix) = false ∧
      (∃ found, destination contexts dn superior = .ok found ∧
        checkDestination source dn found = .ok ()) ∧
      dn.isAncestorOf (superior.child (rdn?.getD old)) = false := by
  simp only [planRelocation, bind_eq_ok_iff, refuseIf_eq_ok_iff] at planned
  obtain ⟨_, other, destination?, looked, _, _, planned⟩ := planned
  obtain ⟨found, leads, rfl⟩ := mapM_some_eq_ok_iff.mp looked
  simp only [bind_eq_ok_iff, refuseIf_eq_ok_iff] at planned
  obtain ⟨_, fits, _, outside, _⟩ := planned
  exact ⟨other, ⟨found, leads, fits⟩, outside⟩

theorem movesWithin_of_answer (distinct : contexts.HasDistinctIds)
    (named : ∀ partition ∈ contexts.partitions, partition.suffix.isRoot = false)
    {given givenSuperior : Dn} {givenRdn? : Option Rdn} {deleteOld : Bool} {response : Response}
    (answered : (agent.answer contexts (.move given (some givenSuperior) givenRdn? deleteOld)
      mode).1 = .ok response) :
    ∃ dn superior partition entry,
      agent.MovesWithin contexts given givenSuperior dn superior partition entry := by
  simp only [answer] at answered
  cases planned : agent.planMove contexts given (some givenSuperior) givenRdn? deleteOld mode with
  | error refusal => simp [planned, commit] at answered
  | ok plan =>
    simp only [planMove, bind_eq_ok_iff] at planned
    obtain ⟨_, _, dn, normalized, superior?, onto, rdn?, _, source, covered, planned⟩ := planned
    obtain ⟨superior, superiorNormalized, rfl⟩ := mapM_some_eq_ok_iff.mp onto
    cases steps : dn.rdns with
    | nil => simp [steps] at planned
    | cons old above =>
      rw [steps] at planned
      obtain ⟨other, destined, outside⟩ := relocates_of_planRelocation planned
      obtain ⟨resolved, held, undelegated⟩ :=
        (exists_destination_iff distinct named (mem_of_covering covered)).mp destined
      obtain ⟨entry, stored⟩ := Option.isSome_iff_exists.mp held
      refine ⟨dn, superior, source, entry, normalized, superiorNormalized,
        covering_eq_ok_iff.mp covered, resolved, stored, undelegated, other, ?_⟩
      rw [← Bool.not_eq_true]
      intro lies
      have below : (superior.child (rdn?.getD old)).parent? = some superior := rfl
      simp [Dn.isAncestorOf_of_parent below lies] at outside

/-- A superior that other servers hold ends every move under it, whoever asks and whatever is
moved. -/
theorem answer_move_of_handsOver
    (named : ∀ partition ∈ contexts.partitions, partition.suffix.isRoot = false)
    {given givenSuperior : Dn} {givenRdn? rdn? : Option Rdn} {partition : Partition}
    (normalized : agent.schema.normalizeDn given = .ok dn)
    (superiorNormalized : agent.schema.normalizeDn givenSuperior = .ok superior)
    (rdnNormalized : givenRdn?.mapM agent.schema.normalizeRdn = .ok rdn?)
    (resolved : contexts.resolve? dn = some source) (other : (dn == source.suffix) = false)
    (superiorResolved : contexts.resolve? superior = some partition)
    (delegated : partition.HandsOver superior) (deleteOld : Bool) (mode : ReferralMode) :
    agent.answer contexts (.move given (some givenSuperior) givenRdn? deleteOld) mode =
      (.error (.affectsMultipleDsas dn.text), contexts) := by
  obtain ⟨listed, owned⟩ := NamingContexts.mem_of_resolve? resolved
  have leads : destination contexts dn superior = .error (.affectsMultipleDsas dn.text) :=
    destination_of_handsOver (named _ (NamingContexts.mem_of_resolve? superiorResolved).1)
      superiorResolved delegated
  have refused : agent.planMove contexts given (some givenSuperior) givenRdn? deleteOld mode =
      .error (.affectsMultipleDsas dn.text) := by
    have onto : (some givenSuperior).mapM agent.schema.normalizeDn = .ok (some superior) :=
      mapM_some_eq_ok_iff.mpr ⟨superior, superiorNormalized, rfl⟩
    have relocation (old : Rdn) (above : List Rdn) :
        agent.planRelocation contexts source dn old above (some superior) rdn? deleteOld mode =
          .error (.affectsMultipleDsas dn.text) := by
      have passed : refuseIf (dn == source.suffix)
          (Error.unwillingToPerform ("cannot move naming context " ++ dn.text)) = .ok () :=
        refuseIf_eq_ok_iff.mpr other
      rw [planRelocation, passed]
      show ((destination contexts dn superior).map some >>= _) = _
      rw [leads]
      rfl
    have notRoot := Dn.isRoot_eq_false_of_lies owned (named source listed)
    cases steps : dn.rdns with
    | nil => simp [Dn.isRoot, steps] at notRoot
    | cons old above =>
      simp only [planMove, Option.isNone_some, Bool.false_and, refuseIf, normalized, onto,
        rdnNormalized, covering_eq_ok_iff.mpr resolved, bind, Except.bind, steps]
      exact relocation old above
  rw [answer, refused]
  rfl

end Agent

end Directory
