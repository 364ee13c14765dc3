import Directory.Proofs.Partition.Contents
import Directory.Referral.Policy

namespace Directory

/-! # The nearest delegation

Several entries above a name can hand their trees over.  The walk from the name finds the
longest of them, which settles every operation on the name but one.  An add looks first at
what lies above the parent, and at the parent itself only after that: where both are
delegated the farther one settles it. -/

/-- A stored entry above a name that hands its tree over. -/
structure Partition.DelegatesAt (partition : Partition) (name point : Dn) (entry : Entry) :
    Prop where
  above : point.isAncestorOf name = true
  owned : partition.suffix.isAncestorOrSelfOf point = true
  stored : partition.store.find? point = some entry
  isReferral : entry.isReferral = true

/-- The one with the most steps. -/
structure Partition.NearestDelegation (partition : Partition) (name point : Dn) (entry : Entry) :
    Prop extends partition.DelegatesAt name point entry where
  longest : ∀ other otherEntry, partition.DelegatesAt name other otherEntry →
    other.length ≤ point.length

/-- What a caller gets who does not manage delegations: nothing, or the targets of the entry in
their order, each with the steps below the entry put before its base. -/
def handedOver (mode : ReferralMode) (name point : Dn) (entry : Entry) : Outcome :=
  match mode with
  | .ignore => .partialResult
  | .throw | .manageDsaIt => .redirect (entry.delegationTargets.map fun target =>
      ⟨target.location, Dn.below (name.rdns.take (name.length - point.length)) target.base⟩)

theorem ReferralPolicy.delegationAt?_eq_some_iff {dn : Dn} {stored? : Option Entry}
    {delegation : Delegation} :
    delegationAt? dn stored? = some delegation ↔
      ∃ entry, stored? = some entry ∧ entry.isReferral = true ∧
        Delegation.ofEntry dn entry = delegation := by
  simp only [delegationAt?, Option.map_eq_some_iff, Option.filter_eq_some_iff, and_assoc]

theorem AncestorWalk.delegation?_along (store : Store) (names : List Dn) :
    (along store names).delegation? =
      names.findSome? fun dn => ReferralPolicy.delegationAt? dn (store.find? dn) := by
  induction names with
  | nil => rfl
  | cons dn rest ih =>
    rw [along, List.findSome?_cons]
    cases found : store.find? dn with
    | none => exact ih
    | some entry =>
      cases referral : entry.isReferral with
      | false => simpa [ReferralPolicy.delegationAt?, Option.filter_some, referral] using ih
      | true => simp [ReferralPolicy.delegationAt?, Option.filter_some, referral]

namespace Partition

variable {partition : Partition} {name parent point far : Dn} {entry farEntry : Entry}
  {mode : ReferralMode}

def walked (partition : Partition) (name : Dn) : List Dn :=
  name.ancestors.takeWhile fun ancestor => partition.suffix.length ≤ ancestor.length

theorem walk_of_lies (lies : partition.suffix.isAncestorOf name = true) :
    partition.walk name = .along partition.store (partition.walked name) := by
  rw [walk, AncestorWalk.upTo, if_pos lies, walked]

theorem delegation?_walk (lies : partition.suffix.isAncestorOf name = true) :
    (partition.walk name).delegation? = (partition.walked name).findSome? fun dn =>
      ReferralPolicy.delegationAt? dn (partition.store.find? dn) := by
  rw [walk_of_lies lies, AncestorWalk.delegation?_along]

theorem descending_walked (partition : Partition) (name : Dn) :
    (partition.walked name).Pairwise fun near far => far.length < near.length := by
  obtain ⟨rdns⟩ := name
  cases rdns with
  | nil => exact .nil
  | cons rdn above =>
    exact (Dn.descending_ancestors_go above).sublist (List.takeWhile_sublist _)

theorem DelegatesAt.suffix_isAncestorOf (delegates : partition.DelegatesAt name point entry) :
    partition.suffix.isAncestorOf name = true := by
  obtain ⟨lies, other⟩ := Dn.isAncestorOf_iff.mp delegates.above
  have upper := Dn.isAncestorOrSelfOf_iff.mp delegates.owned
  refine Dn.isAncestorOf_iff.mpr
    ⟨Dn.isAncestorOrSelfOf_trans delegates.owned lies, fun same => other ?_⟩
  exact (Dn.isAncestorOrSelfOf_iff.mp lies).eq_of_length_le (same ▸ upper.length_le)

theorem delegatesAt_of_mem_walked (lies : partition.suffix.isAncestorOf name = true)
    (member : point ∈ partition.walked name) (stored : partition.store.find? point = some entry)
    (referral : entry.isReferral = true) : partition.DelegatesAt name point entry := by
  have above := (Dn.isAncestorOf_of_mem_ancestors ((List.takeWhile_sublist _).mem member)).1
  have deep : partition.suffix.length ≤ point.length := by
    simpa using List.all_eq_true.mp List.all_takeWhile point member
  refine ⟨above, ?_, stored, referral⟩
  exact Dn.isAncestorOrSelfOf_of_length_le (Dn.isAncestorOf_iff.mp lies).1
    (Dn.isAncestorOf_iff.mp above).1 deep

theorem DelegatesAt.exists_walked (delegates : partition.DelegatesAt name point entry)
    (named : partition.suffix.isRoot = false) :
    ∃ ancestor ∈ partition.walked name, ancestor.length = point.length ∧
      ReferralPolicy.delegationAt? ancestor (partition.store.find? ancestor) =
        some (.ofEntry ancestor entry) := by
  have upper := (Dn.isAncestorOrSelfOf_iff.mp delegates.owned).length_le
  rw [Dn.length_path, Dn.length_path] at upper
  obtain ⟨ancestor, member, same⟩ := Dn.exists_mem_ancestors delegates.above
    (Dn.isRoot_eq_false_of_lies delegates.owned named)
  have sameLength : ancestor.length = point.length := by
    rw [← Dn.length_path, same, Dn.length_path]
  refine ⟨ancestor, ?_, sameLength, ReferralPolicy.delegationAt?_eq_some_iff.mpr
    ⟨entry, ?_, delegates.isReferral, rfl⟩⟩
  · obtain ⟨rdns⟩ := name
    cases rdns with
    | nil => simp [Dn.ancestors] at member
    | cons rdn above => exact Dn.mem_takeWhile_ancestors_go member (sameLength ▸ upper)
  · rw [Store.find?_eq_of_path partition.store same, delegates.stored]

theorem nearest_of_walk (named : partition.suffix.isRoot = false) {delegation : Delegation}
    (ended : (partition.walk name).delegation? = some delegation) :
    ∃ entry, partition.NearestDelegation name delegation.point entry ∧
      .ofEntry delegation.point entry = delegation := by
  by_cases lies : partition.suffix.isAncestorOf name = true
  · have descending := descending_walked partition name
    rw [delegation?_walk lies] at ended
    obtain ⟨nearer, point, farther, walked, found, passed⟩ := List.findSome?_eq_some_iff.mp ended
    obtain ⟨entry, stored, referral, rfl⟩ := ReferralPolicy.delegationAt?_eq_some_iff.mp found
    have member : point ∈ partition.walked name := by simp [walked]
    refine ⟨entry, ⟨delegatesAt_of_mem_walked lies member stored referral, ?_⟩, rfl⟩
    intro other otherEntry delegates
    obtain ⟨ancestor, listed, sameLength, met⟩ := delegates.exists_walked named
    rw [walked] at listed descending
    rw [← sameLength]
    rcases List.mem_append.mp listed with before | listed
    · simp [passed ancestor before] at met
    · rcases List.mem_cons.mp listed with rfl | after
      · exact Nat.le_refl _
      · have tail := (List.pairwise_append.mp descending).2.1
        exact Nat.le_of_lt ((List.pairwise_cons.mp tail).1 ancestor after)
  · rw [walk, AncestorWalk.upTo, if_neg lies] at ended
    simp [AncestorWalk.empty] at ended

theorem DelegatesAt.exists_walk (delegates : partition.DelegatesAt name point entry)
    (named : partition.suffix.isRoot = false) :
    ∃ delegation, (partition.walk name).delegation? = some delegation := by
  obtain ⟨ancestor, member, _, met⟩ := delegates.exists_walked named
  rw [← Option.isSome_iff_exists, delegation?_walk delegates.suffix_isAncestorOf,
    List.findSome?_isSome_iff]
  exact ⟨ancestor, member, by rw [met]; rfl⟩

theorem NearestDelegation.handedOver_eq {other : Dn} {otherEntry : Entry}
    (nearest : partition.NearestDelegation name point entry)
    (otherNearest : partition.NearestDelegation name other otherEntry) (given : Dn) :
    handedOver mode given point entry = handedOver mode given other otherEntry := by
  have same : point.length = other.length :=
    Nat.le_antisymm (otherNearest.longest _ _ nearest.toDelegatesAt)
      (nearest.longest _ _ otherNearest.toDelegatesAt)
  have paths := Dn.path_eq_of_length_eq (Dn.isAncestorOf_iff.mp nearest.above).1
    (Dn.isAncestorOf_iff.mp otherNearest.above).1 same
  have entries : some entry = some otherEntry := by
    rw [← nearest.stored, ← otherNearest.stored, Store.find?_eq_of_path partition.store paths]
  cases mode <;> simp only [handedOver, same, Option.some.inj entries]

theorem outcome_ofEntry (lies : point.isAncestorOrSelfOf name = true) :
    (Delegation.ofEntry point entry).outcome mode name = handedOver mode name point entry := by
  cases mode <;>
    simp [Delegation.outcome, handedOver, Delegation.redirects, Delegation.ofEntry,
      Dn.relativeTo?, lies]

theorem decide_of_above (unmanaged : mode ≠ .manageDsaIt) {isPresent : Bool}
    {delegation : Delegation} {itself : Option Delegation} :
    Outcome.decide isPresent (some delegation) itself mode name = delegation.outcome mode name := by
  simp [Outcome.decide, ReferralMode.managesDsaIt, unmanaged]

theorem classify_of_nearest (named : partition.suffix.isRoot = false)
    (unmanaged : mode ≠ .manageDsaIt) (nearest : partition.NearestDelegation name point entry)
    (policy : ReferralPolicy) (kind : OperationKind) (target? : Option Entry) :
    policy.classify kind mode name target? (partition.walk name) =
      handedOver mode name point entry := by
  obtain ⟨delegation, ended⟩ := nearest.exists_walk named
  obtain ⟨reached, reachedNearest, same⟩ := nearest_of_walk named ended
  have lies := (Dn.isAncestorOf_iff.mp reachedNearest.above).1
  rw [ReferralPolicy.classify, ended, decide_of_above unmanaged, ← same, outcome_ofEntry lies]
  exact reachedNearest.handedOver_eq nearest name

theorem classifyAdd_of_above_parent (named : partition.suffix.isRoot = false)
    (unmanaged : mode ≠ .manageDsaIt) (isParent : name.parent? = some parent)
    (nearest : partition.NearestDelegation parent far farEntry) (parent? : Option Entry) :
    ReferralPolicy.classifyAdd mode name parent parent? (partition.walk parent) =
      handedOver mode name far farEntry := by
  obtain ⟨delegation, ended⟩ := nearest.exists_walk named
  obtain ⟨reached, reachedNearest, same⟩ := nearest_of_walk named ended
  have lies : delegation.point.isAncestorOrSelfOf name = true :=
    Dn.isAncestorOrSelfOf_trans (Dn.isAncestorOf_iff.mp reachedNearest.above).1
      (Dn.parent_isAncestorOrSelfOf isParent)
  rw [ReferralPolicy.classifyAdd, ended, decide_of_above unmanaged, ← same, outcome_ofEntry lies]
  exact reachedNearest.handedOver_eq nearest name

theorem DelegatesAt.parent_or_above (delegates : partition.DelegatesAt name point entry)
    (isParent : name.parent? = some parent) :
    point.path = parent.path ∨ partition.DelegatesAt parent point entry := by
  obtain ⟨lies, other⟩ := Dn.isAncestorOf_iff.mp delegates.above
  have upper := Dn.isAncestorOrSelfOf_parent isParent lies other
  by_cases same : point.path = parent.path
  · exact .inl same
  · exact .inr { delegates with above := Dn.isAncestorOf_iff.mpr ⟨upper, same⟩ }

theorem classifyAdd_of_parent (named : partition.suffix.isRoot = false)
    (unmanaged : mode ≠ .manageDsaIt) (isParent : name.parent? = some parent)
    (delegates : partition.DelegatesAt name point entry)
    (clear : ∀ far farEntry, ¬ partition.DelegatesAt parent far farEntry) :
    ReferralPolicy.classifyAdd mode name parent (partition.store.find? parent)
      (partition.walk parent) = handedOver mode name point entry := by
  have same := (delegates.parent_or_above isParent).resolve_right (clear point entry)
  have stored : partition.store.find? parent = some entry := by
    rw [← Store.find?_eq_of_path partition.store same, delegates.stored]
  have undelegated : (partition.walk parent).delegation? = none := by
    cases ended : (partition.walk parent).delegation? with
    | none => rfl
    | some delegation =>
      obtain ⟨farEntry, nearest, _⟩ := nearest_of_walk named ended
      exact absurd nearest.toDelegatesAt (clear _ _)
  have itself : ReferralPolicy.delegationAt? parent (some entry) = some (.ofEntry parent entry) :=
    ReferralPolicy.delegationAt?_eq_some_iff.mpr ⟨entry, rfl, delegates.isReferral, rfl⟩
  have sameLength : parent.length = point.length := by
    rw [← Dn.length_path, ← same, Dn.length_path]
  have outcome : (Delegation.ofEntry parent entry).outcome mode name =
      handedOver mode name point entry := by
    rw [outcome_ofEntry (Dn.parent_isAncestorOrSelfOf isParent)]
    cases mode <;> simp only [handedOver, sameLength]
  simpa [ReferralPolicy.classifyAdd, Outcome.decide, ReferralMode.managesDsaIt, unmanaged,
    undelegated, stored, itself] using outcome

/-- Every operation on a name below a delegation is settled by the nearest one, whichever policy
is in force and whether or not the name is there.  An add is settled by what is nearest above
the parent, and so agrees with the others exactly where that comes to the same. -/
theorem classify_nearest_delegation (named : partition.suffix.isRoot = false)
    (unmanaged : mode ≠ .manageDsaIt) (isParent : name.parent? = some parent)
    (delegated : ∃ point entry, partition.DelegatesAt name point entry) :
    ∃ point entry, partition.NearestDelegation name point entry ∧
      (∀ (policy : ReferralPolicy) (kind : OperationKind),
        policy.classify kind mode name (partition.store.find? name) (partition.walk name) =
          handedOver mode name point entry) ∧
      (ReferralPolicy.classifyAdd mode name parent (partition.store.find? parent)
          (partition.walk parent) = handedOver mode name point entry ↔
        ∀ far farEntry, partition.NearestDelegation parent far farEntry →
          handedOver mode name far farEntry = handedOver mode name point entry) := by
  obtain ⟨_, _, delegates⟩ := delegated
  obtain ⟨delegation, ended⟩ := delegates.exists_walk named
  obtain ⟨entry, nearest, _⟩ := nearest_of_walk named ended
  refine ⟨delegation.point, entry, nearest,
    fun policy kind => classify_of_nearest named unmanaged nearest policy kind _, ?_, ?_⟩
  · intro agrees far farEntry farNearest
    rw [← agrees, classifyAdd_of_above_parent named unmanaged isParent farNearest]
  · intro agree
    by_cases clear : ∀ far farEntry, ¬ partition.DelegatesAt parent far farEntry
    · exact classifyAdd_of_parent named unmanaged isParent nearest.toDelegatesAt clear
    · simp only [not_forall, not_not] at clear
      obtain ⟨_, _, farDelegates⟩ := clear
      obtain ⟨further, farEnded⟩ := farDelegates.exists_walk named
      obtain ⟨farEntry, farNearest, _⟩ := nearest_of_walk named farEnded
      rw [classifyAdd_of_above_parent named unmanaged isParent farNearest]
      exact agree _ _ farNearest

/-- A name two steps below the only delegation, the entry between the two being data. -/
theorem classify_nearest_delegation_at_suffix :
    ∃ (suffix parent name : Dn) (partition : Partition),
      Dn.parse "o=far" = .ok suffix ∧ Dn.parse "ou=near,o=far" = .ok parent ∧
      Dn.parse "cn=x,ou=near,o=far" = .ok name ∧
      (empty "p" suffix).performAll
        [.create (.ofValues suffix
          [("objectClass", ["referral"]), ("ref", ["ldap://far/o=a"])]),
        .create (.empty parent)] = partition ∧
      ∃ point entry, partition.NearestDelegation name point entry ∧
        (∀ (policy : ReferralPolicy) (kind : OperationKind),
          policy.classify kind .throw name (partition.store.find? name) (partition.walk name) =
            handedOver .throw name point entry) ∧
        (ReferralPolicy.classifyAdd .throw name parent (partition.store.find? parent)
            (partition.walk parent) = handedOver .throw name point entry ↔
          ∀ far farEntry, partition.NearestDelegation parent far farEntry →
            handedOver .throw name far farEntry = handedOver .throw name point entry) := by
  have run : (do
      let suffix ← Dn.parse "o=far"
      let parent ← Dn.parse "ou=near,o=far"
      let name ← Dn.parse "cn=x,ou=near,o=far"
      let partition := (empty "p" suffix).performAll
        [.create (.ofValues suffix
          [("objectClass", ["referral"]), ("ref", ["ldap://far/o=a"])]),
        .create (.empty parent)]
      Except.ok (decide (partition.suffix.isRoot = false ∧ name.parent? = some parent ∧
        suffix.isAncestorOf name = true ∧ partition.suffix.isAncestorOrSelfOf suffix = true ∧
        (partition.store.find? suffix).any Entry.isReferral = true))) =
        Except.ok (ε := Error) true := by
    decide +kernel
  obtain ⟨suffix, suffixRead, run⟩ := bind_eq_ok_iff.mp run
  obtain ⟨parent, parentRead, run⟩ := bind_eq_ok_iff.mp run
  obtain ⟨name, nameRead, run⟩ := bind_eq_ok_iff.mp run
  obtain ⟨named, isParent, above, owned, held⟩ := of_decide_eq_true (Except.ok.inj run)
  obtain ⟨entry, stored, referral⟩ := (Option.any_eq_true _ _).mp held
  exact ⟨suffix, parent, name, _, suffixRead, parentRead, nameRead, rfl,
    classify_nearest_delegation named (by decide) isParent
      ⟨suffix, entry, above, owned, stored, referral⟩⟩

/-- An add two steps below the suffix, with delegations at the suffix and at the parent: the
parent is the nearest one, and yet the caller is sent where the suffix leads. -/
theorem classifyAdd_farther_delegation :
    ∃ (suffix parent name : Dn) (partition : Partition) (entry : Entry),
      Dn.parse "o=far" = .ok suffix ∧ Dn.parse "ou=near,o=far" = .ok parent ∧
      Dn.parse "cn=x,ou=near,o=far" = .ok name ∧
      (empty "p" suffix).performAll
        [.create (.ofValues suffix
          [("objectClass", ["referral"]), ("ref", ["ldap://far/o=a"])]),
        .create (.ofValues parent
          [("objectClass", ["referral"]), ("ref", ["ldap://near/o=b"])])] = partition ∧
      partition.NearestDelegation name parent entry ∧
      ReferralPolicy.classifyAdd .throw name parent (partition.store.find? parent)
        (partition.walk parent) ≠ handedOver .throw name parent entry := by
  have run : (do
      let suffix ← Dn.parse "o=far"
      let parent ← Dn.parse "ou=near,o=far"
      let name ← Dn.parse "cn=x,ou=near,o=far"
      let entry := Entry.ofValues parent
        [("objectClass", ["referral"]), ("ref", ["ldap://near/o=b"])]
      let partition := (empty "p" suffix).performAll
        [.create (.ofValues suffix
          [("objectClass", ["referral"]), ("ref", ["ldap://far/o=a"])]), .create entry]
      Except.ok (decide (name.length = parent.length + 1 ∧ parent.isAncestorOf name = true ∧
        partition.suffix.isAncestorOrSelfOf parent = true ∧
        partition.store.find? parent = some entry ∧ entry.isReferral = true ∧
        ReferralPolicy.classifyAdd .throw name parent (partition.store.find? parent)
          (partition.walk parent) ≠ handedOver .throw name parent entry))) =
        Except.ok (ε := Error) true := by
    decide +kernel
  obtain ⟨suffix, suffixRead, run⟩ := bind_eq_ok_iff.mp run
  obtain ⟨parent, parentRead, run⟩ := bind_eq_ok_iff.mp run
  obtain ⟨name, nameRead, run⟩ := bind_eq_ok_iff.mp run
  obtain ⟨step, above, owned, stored, referral, apart⟩ :=
    of_decide_eq_true (Except.ok.inj run)
  refine ⟨suffix, parent, name, _, _, suffixRead, parentRead, nameRead, rfl,
    ⟨⟨above, owned, stored, referral⟩, fun other otherEntry delegates => ?_⟩, apart⟩
  have shorter := delegates.above
  simp only [Dn.isAncestorOf, Bool.and_eq_true, decide_eq_true_eq] at shorter
  omega

end Partition

end Directory
