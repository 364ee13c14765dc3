import Directory.Proofs.Agent.Search
import Directory.Proofs.Agent.Writes
import Directory.Proofs.Referral.NearestDelegation

namespace Directory

/-! # Hidden trees

What lies strictly below a delegation is hidden from a caller who does not manage delegations.
Two partitions that differ in hidden entries only lead every name to the same outcome, and where
the outcome is to go on, nothing hidden is looked at. -/

/-- A delegation lies above the name. -/
def Store.Hides (store : Store) (dn : Dn) : Prop :=
  ∃ point ∈ store.values, point.isReferral = true ∧ point.dn.isAncestorOf dn = true

instance (store : Store) (dn : Dn) : Decidable (store.Hides dn) :=
  inferInstanceAs (Decidable (∃ _ ∈ _, _))

/-- The stores hold the same delegations, and the same entries that none of them hides. -/
structure Store.AgreeOutside (left right : Store) : Prop where
  delegations : ∀ entry : Entry, entry.isReferral = true →
    (entry ∈ left.values ↔ entry ∈ right.values)
  shown : ∀ entry : Entry, (entry ∈ left.values ∧ ¬ left.Hides entry.dn) ↔
    (entry ∈ right.values ∧ ¬ right.Hides entry.dn)

/-- Agreement that can be decided: the stores list the same delegations and the same entries that
none of them hides. -/
def Store.ListAlike (left right : Store) : Prop :=
  left.values.filter Entry.isReferral = right.values.filter Entry.isReferral ∧
    (left.values.filter fun entry => ¬ left.Hides entry.dn) =
      right.values.filter fun entry => ¬ right.Hides entry.dn

instance (left right : Store) : Decidable (left.ListAlike right) :=
  inferInstanceAs (Decidable (_ ∧ _))

namespace Store

variable {store left right : Store} {suffix base dn other : Dn} {entry : Entry}
  {scope : SearchScope}

theorem hides_congr (store : Store) (same : dn.path = other.path) :
    store.Hides dn ↔ store.Hides other := by
  simp only [Hides, Dn.isAncestorOf_congr _ same]

theorem AgreeOutside.symm (agree : left.AgreeOutside right) : right.AgreeOutside left :=
  ⟨fun entry referral => (agree.delegations entry referral).symm,
    fun entry => (agree.shown entry).symm⟩

theorem AgreeOutside.hides_iff (agree : left.AgreeOutside right) (dn : Dn) :
    left.Hides dn ↔ right.Hides dn := by
  constructor
  · rintro ⟨point, listed, referral, above⟩
    exact ⟨point, (agree.delegations point referral).mp listed, referral, above⟩
  · rintro ⟨point, listed, referral, above⟩
    exact ⟨point, (agree.delegations point referral).mpr listed, referral, above⟩

theorem AgreeOutside.mem_iff (agree : left.AgreeOutside right) (clear : ¬ left.Hides entry.dn) :
    entry ∈ left.values ↔ entry ∈ right.values := by
  have otherClear : ¬ right.Hides entry.dn := mt (agree.hides_iff entry.dn).mpr clear
  simpa [clear, otherClear] using agree.shown entry

theorem ListAlike.agreeOutside (alike : left.ListAlike right) : left.AgreeOutside right := by
  obtain ⟨delegations, shown⟩ := alike
  constructor
  · intro entry referral
    have same := congrArg (entry ∈ ·) delegations
    simpa [List.mem_filter, referral] using same
  · intro entry
    have same := congrArg (entry ∈ ·) shown
    simpa [List.mem_filter] using same

/-- What a search is about to return from below a base that is neither hidden nor a delegation is
not hidden. -/
theorem not_hides_of_undelegated (filed : store.IsFiled suffix) (plain : store.HasPlainNames)
    (basePlain : base.HasPlainTypes) (clear : ¬ store.Hides base)
    (isEntry : ∀ top, store.find? base = some top → top.isReferral = false)
    (listed : entry ∈ Agent.undelegated base (store.inScope scope base)) :
    ¬ store.Hides entry.dn := by
  rintro ⟨point, stored, referral, above⟩
  obtain ⟨inside, kept⟩ := List.mem_filter.mp listed
  obtain ⟨_, outside⟩ := of_decide_eq_true kept
  have lies := isAncestorOrSelfOf_of_inScope inside
  obtain ⟨shorter, upper⟩ : point.dn.length < entry.dn.length ∧
      point.dn.isAncestorOrSelfOf entry.dn = true := by
    simpa [Dn.isAncestorOf] using above
  rcases Nat.lt_trichotomy point.dn.length base.length with higher | same | lower
  · have aboveBase := Dn.isAncestorOrSelfOf_of_length_le upper lies (Nat.le_of_lt higher)
    exact clear ⟨point, stored, referral, by simp [Dn.isAncestorOf, higher, aboveBase]⟩
  · have paths := Dn.path_eq_of_length_eq upper lies same
    have found := (filed.find?_eq_some_iff plain basePlain).mpr ⟨stored, paths⟩
    simp [isEntry point found] at referral
  · have belowBase := Dn.isAncestorOrSelfOf_of_length_le lies upper (Nat.le_of_lt lower)
    have strict : base.isAncestorOf point.dn = true := by simp [Dn.isAncestorOf, lower, belowBase]
    by_cases whole : scope = .subtree
    · subst whole
      have reached : point ∈ store.inScope .subtree base :=
        List.mem_filter.mpr ⟨stored, belowBase⟩
      obtain ⟨top, isTop, higher⟩ := Agent.exists_outermost reached referral strict
      have hides := Dn.isAncestorOf_of_isAncestorOrSelfOf higher above
      simp [outside top isTop] at hides
    · have shallow := SearchScope.length_le_of_covers (List.mem_filter.mp inside).2 whole
      omega

end Store

/-- Partitions of one tree with plain names that differ in hidden entries only. -/
structure Partition.Resembles (left right : Partition) : Prop where
  named : left.suffix.isRoot = false
  suffix : left.suffix = right.suffix
  leftFiled : left.store.IsFiled left.suffix
  rightFiled : right.store.IsFiled right.suffix
  leftPlain : left.store.HasPlainNames
  rightPlain : right.store.HasPlainNames
  agree : left.store.AgreeOutside right.store

namespace Partition.Resembles

variable {left right : Partition} {dn base : Dn} {entry : Entry} {agent : Agent}
  {mode : ReferralMode} {kind : OperationKind} {schema : Schema} {filter : Filter}
  {scope : SearchScope}

theorem delegationAt?_eq (alike : left.Resembles right) (plain : dn.HasPlainTypes) :
    ReferralPolicy.delegationAt? dn (left.store.find? dn) =
      ReferralPolicy.delegationAt? dn (right.store.find? dn) := by
  refine Option.ext fun delegation => ?_
  rw [ReferralPolicy.delegationAt?_eq_some_iff, ReferralPolicy.delegationAt?_eq_some_iff]
  refine exists_congr fun entry => and_congr_left fun ⟨referral, _⟩ => ?_
  rw [alike.leftFiled.find?_eq_some_iff alike.leftPlain plain,
    alike.rightFiled.find?_eq_some_iff alike.rightPlain plain,
    alike.agree.delegations entry referral]

/-- Only delegations end a walk, so it ends alike in both. -/
theorem delegation?_along_eq (alike : left.Resembles right) {names : List Dn}
    (plain : ∀ dn ∈ names, dn.HasPlainTypes) :
    (AncestorWalk.along left.store names).delegation? =
      (AncestorWalk.along right.store names).delegation? := by
  rw [AncestorWalk.delegation?_along, AncestorWalk.delegation?_along]
  induction names with
  | nil => rfl
  | cons dn rest ih =>
    have tail := ih fun other listed => plain other (List.mem_cons_of_mem _ listed)
    rw [List.findSome?_cons, List.findSome?_cons, tail,
      alike.delegationAt?_eq (plain dn List.mem_cons_self)]

theorem delegation?_walk_eq (alike : left.Resembles right) (plain : dn.HasPlainTypes) :
    (left.walk dn).delegation? = (right.walk dn).delegation? := by
  by_cases lies : left.suffix.isAncestorOf dn = true
  · have otherLies : right.suffix.isAncestorOf dn = true := alike.suffix ▸ lies
    rw [walk, walk, AncestorWalk.upTo, AncestorWalk.upTo, if_pos lies, if_pos otherLies,
      alike.suffix]
    refine alike.delegation?_along_eq fun above listed => ?_
    have higher := Dn.isAncestorOf_of_mem_ancestors ((List.takeWhile_sublist _).mem listed)
    exact plain.of_lies (Dn.isAncestorOf_iff.mp higher.1).1
  · have away : ¬ right.suffix.isAncestorOf dn = true := alike.suffix ▸ lies
    rw [walk, walk, AncestorWalk.upTo, AncestorWalk.upTo, if_neg lies, if_neg away]

theorem not_hides_of_walk (alike : left.Resembles right)
    (clear : (left.walk dn).delegation? = none) : ¬ left.store.Hides dn := by
  rintro ⟨point, stored, referral, above⟩
  have found := (alike.leftFiled.find?_eq_some_iff alike.leftPlain
    (alike.leftPlain point stored)).mpr ⟨stored, rfl⟩
  have owned := (alike.leftFiled _ point found).owned
  have delegates : left.DelegatesAt dn point.dn point := ⟨above, owned, found, referral⟩
  obtain ⟨delegation, ended⟩ := delegates.exists_walk alike.named
  simp [clear] at ended

theorem find?_eq (alike : left.Resembles right) (plain : dn.HasPlainTypes)
    (clear : ¬ left.store.Hides dn) : left.store.find? dn = right.store.find? dn := by
  refine Option.ext fun entry => ?_
  rw [alike.leftFiled.find?_eq_some_iff alike.leftPlain plain,
    alike.rightFiled.find?_eq_some_iff alike.rightPlain plain]
  refine and_congr_left fun same => alike.agree.mem_iff ?_
  exact mt (left.store.hides_congr same).mp clear

/-- What follows on the classification of a name is the same in both, if it is the same where the
name is not hidden. -/
theorem classify_bind_eq {α : Type} {leftNext rightNext : Except Error α}
    (alike : left.Resembles right) (plain : dn.HasPlainTypes) (unmanaged : mode ≠ .manageDsaIt)
    (same : ¬ left.store.Hides dn → leftNext = rightNext) :
    ((agent.classify kind mode left dn).result dn >>= fun _ => leftNext) =
      ((agent.classify kind mode right dn).result dn >>= fun _ => rightNext) := by
  have walks := alike.delegation?_walk_eq plain
  cases ended : (left.walk dn).delegation? with
  | none =>
    have clear := alike.not_hides_of_walk ended
    simp only [Agent.classify, ReferralPolicy.classify, alike.find?_eq plain clear, walks,
      same clear]
  | some delegation =>
    rw [ended] at walks
    simp only [Agent.classify, ReferralPolicy.classify, ended, ← walks, decide_of_above unmanaged]
    cases mode <;> rfl

theorem outermost_eq (alike : left.Resembles right) :
    Agent.outermost base (left.store.inScope scope base) =
      Agent.outermost base (right.store.inScope scope base) := by
  have same : (left.store.inScope scope base).filter
        (fun entry => entry.isReferral && base.isAncestorOf entry.dn) =
      (right.store.inScope scope base).filter
        (fun entry => entry.isReferral && base.isAncestorOf entry.dn) := by
    simp only [Store.inScope, List.filter_filter]
    refine alike.leftFiled.filter_values_congr alike.rightFiled fun entry passes => ?_
    simp only [Bool.and_eq_true] at passes
    exact alike.agree.delegations entry passes.1.1
  rw [Agent.outermost, Agent.outermost, same]

theorem undelegated_eq (alike : left.Resembles right) (basePlain : base.HasPlainTypes)
    (clear : ¬ left.store.Hides base)
    (isEntry : ∀ top, left.store.find? base = some top → top.isReferral = false) :
    Agent.undelegated base (left.store.inScope scope base) =
      Agent.undelegated base (right.store.inScope scope base) := by
  have sameTop := alike.find?_eq basePlain clear
  have otherClear := mt (alike.agree.hides_iff base).mpr clear
  have samePoints : Agent.outermost base (left.store.inScope scope base) =
    Agent.outermost base (right.store.inScope scope base) := alike.outermost_eq
  simp only [Agent.undelegated, samePoints]
  show (left.store.values.filter _).filter _ = (right.store.values.filter _).filter _
  rw [List.filter_filter, List.filter_filter]
  refine alike.leftFiled.filter_values_congr alike.rightFiled fun entry passes => ?_
  simp only [Bool.and_eq_true] at passes
  constructor
  · intro listed
    have found : entry ∈ Agent.undelegated base (left.store.inScope scope base) := by
      rw [Agent.undelegated, samePoints]
      exact List.mem_filter.mpr ⟨List.mem_filter.mpr ⟨listed, passes.2⟩, passes.1⟩
    have shown := Store.not_hides_of_undelegated alike.leftFiled alike.leftPlain basePlain clear
      isEntry found
    exact (alike.agree.mem_iff shown).mp listed
  · intro listed
    have found : entry ∈ Agent.undelegated base (right.store.inScope scope base) :=
      List.mem_filter.mpr ⟨List.mem_filter.mpr ⟨listed, passes.2⟩, passes.1⟩
    have shown := Store.not_hides_of_undelegated alike.rightFiled alike.rightPlain basePlain
      otherClear (sameTop ▸ isEntry) found
    exact (alike.agree.symm.mem_iff shown).mp listed

theorem searchStore_eq (alike : left.Resembles right) (basePlain : base.HasPlainTypes)
    (unmanaged : mode ≠ .manageDsaIt) (clear : ¬ left.store.Hides base) :
    Agent.searchStore schema left.store base scope filter mode =
      Agent.searchStore schema right.store base scope filter mode := by
  have sameTop := alike.find?_eq basePlain clear
  by_cases delegated : ∃ top, left.store.find? base = some top ∧ top.isReferral = true
  · obtain ⟨top, stored, referral⟩ := delegated
    rw [Agent.searchStore_of_delegation alike.leftFiled alike.leftPlain basePlain unmanaged stored
        referral,
      Agent.searchStore_of_delegation alike.rightFiled alike.rightPlain basePlain unmanaged
        (sameTop ▸ stored) referral]
    simp only [Store.inScope, List.filter_filter]
    rw [alike.leftFiled.filter_values_congr alike.rightFiled fun entry passes => ?_]
    simp only [Bool.and_eq_true] at passes
    have sameName := Dn.beq_iff_path.mp passes.1.2
    exact alike.agree.mem_iff (mt (left.store.hides_congr sameName).mp clear)
  · have isEntry : ∀ top, left.store.find? base = some top → top.isReferral = false := by
      intro top stored
      rw [← Bool.not_eq_true]
      exact fun referral => delegated ⟨top, stored, referral⟩
    rw [Agent.searchStore_of_entry alike.leftFiled alike.leftPlain basePlain unmanaged isEntry rfl,
      Agent.searchStore_of_entry alike.rightFiled alike.rightPlain basePlain unmanaged
        (sameTop ▸ isEntry) rfl,
      alike.outermost_eq, alike.undelegated_eq basePlain clear isEntry]

end Partition.Resembles

end Directory
