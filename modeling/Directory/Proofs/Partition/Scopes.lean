import Directory.Agent.Search
import Directory.Proofs.Partition.Tree

namespace Directory

/-! # What a scope reaches

A store finds a scope by keys.  Where the stored names and the base are plain, the same entries
are found by comparing names with the base. -/

/-- Whether a scope reaches a name from a base. -/
def SearchScope.covers (scope : SearchScope) (base dn : Dn) : Bool :=
  match scope with
  | .base => dn == base
  | .oneLevel => dn.parent?.any (· == base)
  | .subtree => base.isAncestorOrSelfOf dn

/-- The stored entries that a scope reaches, superiors first. -/
def Store.inScope (store : Store) (scope : SearchScope) (base : Dn) : List Entry :=
  store.values.filter fun entry => scope.covers base entry.dn

namespace Dn

variable {base dn above : Dn}

theorem parent?_any_eq (base dn : Dn) :
    dn.parent?.any (· == base) = (base.isAncestorOrSelfOf dn && dn.length == base.length + 1) := by
  rw [Bool.eq_iff_iff, Option.any_eq_true, Bool.and_eq_true, beq_iff_eq]
  constructor
  · rintro ⟨parent, isParent, same⟩
    obtain ⟨key, steps⟩ := exists_path_eq_of_parent? isParent
    rw [beq_iff_path.mp same] at steps
    refine ⟨isAncestorOrSelfOf_iff.mpr (steps ▸ List.suffix_cons key _), ?_⟩
    rw [← length_path, ← length_path, steps, List.length_cons]
  · rintro ⟨lies, longer⟩
    obtain ⟨front, whole⟩ := isAncestorOrSelfOf_iff.mp lies
    have single : front.length = 1 := by
      have counted := congrArg List.length whole
      rw [List.length_append, length_path, length_path] at counted
      omega
    obtain ⟨key, rfl⟩ := List.length_eq_one_iff.mp single
    obtain ⟨parent, isParent, same⟩ := exists_parent?_of_path whole.symm
    exact ⟨parent, isParent, beq_iff_path.mpr same⟩

theorem isAncestorOf_irrefl (dn : Dn) : dn.isAncestorOf dn = false := by
  simp [isAncestorOf]

theorem isAncestorOf_trans {top middle bottom : Dn} (upper : top.isAncestorOf middle = true)
    (lower : middle.isAncestorOf bottom = true) : top.isAncestorOf bottom = true := by
  simp only [isAncestorOf, Bool.and_eq_true, decide_eq_true_eq] at upper lower ⊢
  exact ⟨Nat.lt_trans upper.1 lower.1, isAncestorOrSelfOf_trans upper.2 lower.2⟩

theorem isAncestorOf_of_isAncestorOrSelfOf {top middle bottom : Dn}
    (upper : top.isAncestorOrSelfOf middle = true) (lower : middle.isAncestorOf bottom = true) :
    top.isAncestorOf bottom = true := by
  have shorter := (isAncestorOrSelfOf_iff.mp upper).length_le
  rw [length_path, length_path] at shorter
  simp only [isAncestorOf, Bool.and_eq_true, decide_eq_true_eq] at lower ⊢
  exact ⟨Nat.lt_of_le_of_lt shorter lower.1, isAncestorOrSelfOf_trans upper lower.2⟩

theorem isAncestorOf_congr {other : Dn} (above : Dn) (same : dn.path = other.path) :
    above.isAncestorOf dn = above.isAncestorOf other := by
  rw [isAncestorOf, isAncestorOf, isAncestorOrSelfOf, isAncestorOrSelfOf, ← length_path dn, same,
    length_path]

end Dn

namespace SearchScope

variable {scope : SearchScope} {base dn : Dn}

theorem isAncestorOrSelfOf_of_covers (covered : scope.covers base dn = true) :
    base.isAncestorOrSelfOf dn = true := by
  cases scope with
  | base =>
    have same : dn.path = base.path := Dn.beq_iff_path.mp covered
    exact Dn.isAncestorOrSelfOf_iff.mpr (same ▸ List.suffix_rfl)
  | oneLevel =>
    rw [covers, Dn.parent?_any_eq, Bool.and_eq_true] at covered
    exact covered.1
  | subtree => exact covered

theorem length_le_of_covers (covered : scope.covers base dn = true) (shallow : scope ≠ .subtree) :
    dn.length ≤ base.length + 1 := by
  cases scope with
  | base =>
    have same : dn.path = base.path := Dn.beq_iff_path.mp covered
    rw [← Dn.length_path, same, Dn.length_path]
    exact Nat.le_succ base.length
  | oneLevel =>
    rw [covers, Dn.parent?_any_eq, Bool.and_eq_true, beq_iff_eq] at covered
    exact Nat.le_of_eq covered.2
  | subtree => contradiction

end SearchScope

namespace Store

variable {store left right : Store} {suffix leftSuffix rightSuffix base dn : Dn} {entry : Entry}

theorem IsFiled.mem_values_iff (filed : store.IsFiled suffix) :
    entry ∈ store.values ↔ store.get? entry.dn.storageKey = some entry := by
  constructor
  · intro listed
    obtain ⟨key, found⟩ := KeyTable.mem_values_iff.mp listed
    rwa [← (filed key entry found).keyed]
  · intro found
    exact KeyTable.mem_values_iff.mpr ⟨_, found⟩

theorem IsFiled.find?_eq_some_iff (filed : store.IsFiled suffix) (plain : store.HasPlainNames)
    (dnPlain : dn.HasPlainTypes) :
    store.find? dn = some entry ↔ entry ∈ store.values ∧ entry.dn.path = dn.path := by
  constructor
  · intro found
    have listed := KeyTable.mem_values_iff.mpr ⟨_, found⟩
    have keyed := (filed _ entry found).keyed
    exact ⟨listed, ((Dn.storageKey_inj dnPlain (plain entry listed)).mp keyed).symm⟩
  · rintro ⟨listed, same⟩
    rw [find?, ← Dn.storageKey_eq_of_path same]
    exact filed.mem_values_iff.mp listed

theorem IsFiled.subtree_eq (filed : store.IsFiled suffix) (plain : store.HasPlainNames)
    (basePlain : base.HasPlainTypes) :
    store.subtree base = store.values.filter fun entry => base.isAncestorOrSelfOf entry.dn := by
  refine KeyTable.values_filter fun key entry found => ?_
  have listed := KeyTable.mem_values_iff.mpr ⟨key, found⟩
  rw [Bool.eq_iff_iff, isUnder_iff, (filed key entry found).keyed]
  exact Dn.storageKey_isPrefix_iff basePlain (plain entry listed)

theorem IsFiled.toList_find?_eq (filed : store.IsFiled suffix) (plain : store.HasPlainNames)
    (basePlain : base.HasPlainTypes) :
    (store.find? base).toList = store.values.filter fun entry => entry.dn == base := by
  rw [find?, ← KeyTable.values_filter_key]
  refine KeyTable.values_filter fun key entry found => ?_
  have listed := KeyTable.mem_values_iff.mpr ⟨key, found⟩
  rw [Bool.eq_iff_iff, beq_iff_eq, Dn.beq_iff_path, (filed key entry found).keyed]
  exact Dn.storageKey_inj (plain entry listed) basePlain

theorem IsFiled.candidates_eq (filed : store.IsFiled suffix) (plain : store.HasPlainNames)
    (basePlain : base.HasPlainTypes) (scope : SearchScope) :
    Agent.candidates store base scope = store.inScope scope base := by
  cases scope with
  | base => exact filed.toList_find?_eq plain basePlain
  | subtree => exact filed.subtree_eq plain basePlain
  | oneLevel =>
    rw [Agent.candidates, children, filed.subtree_eq plain basePlain, List.filter_filter]
    refine List.filter_congr fun entry _ => ?_
    rw [SearchScope.covers, Dn.parent?_any_eq, Bool.and_comm]

theorem isAncestorOrSelfOf_of_inScope {scope : SearchScope}
    (listed : entry ∈ store.inScope scope base) : base.isAncestorOrSelfOf entry.dn = true :=
  SearchScope.isAncestorOrSelfOf_of_covers (List.mem_filter.mp listed).2

/-- Nothing stands behind what lies below it. -/
theorem IsFiled.superiors_first (filed : store.IsFiled suffix) (plain : store.HasPlainNames) :
    store.values.Pairwise fun earlier later => later.dn.isAncestorOf earlier.dn = false := by
  rw [KeyTable.values, List.pairwise_map]
  refine store.ascending.imp_of_mem ?_
  intro first second bound laterBound precedes
  obtain ⟨key, earlier⟩ := first
  obtain ⟨laterKey, later⟩ := second
  have found := KeyTable.get?_eq_some_iff.mpr bound
  have laterFound := KeyTable.get?_eq_some_iff.mpr laterBound
  rw [Bool.eq_false_iff]
  intro above
  have starts : laterKey <+: key := by
    rw [(filed key earlier found).keyed, (filed laterKey later laterFound).keyed]
    have earlierPlain := plain earlier (KeyTable.mem_values_iff.mpr ⟨key, found⟩)
    have laterPlain := plain later (KeyTable.mem_values_iff.mpr ⟨laterKey, laterFound⟩)
    exact (Dn.storageKey_isPrefix_iff laterPlain earlierPlain).mpr (Dn.isAncestorOf_iff.mp above).1
  simp [Text.precedes_of_isPrefix starts] at precedes

/-- Entries that two stores share are in the same order in both. -/
theorem IsFiled.filter_values_congr (leftFiled : left.IsFiled leftSuffix)
    (rightFiled : right.IsFiled rightSuffix) {test : Entry → Bool}
    (shared : ∀ entry, test entry = true → (entry ∈ left.values ↔ entry ∈ right.values)) :
    left.values.filter test = right.values.filter test := by
  have whole (store : Store) : (store.filter fun _ => test).values = store.values.filter test :=
    KeyTable.values_filter fun _ _ _ => rfl
  rw [← whole left, ← whole right]
  refine congrArg KeyTable.values (KeyTable.ext_get? fun key => Option.ext fun entry => ?_)
  simp only [KeyTable.get?_filter, Option.filter_eq_some_iff]
  refine and_congr_left fun passes => ?_
  constructor
  · intro found
    have listed := (shared entry passes).mp (KeyTable.mem_values_iff.mpr ⟨key, found⟩)
    rw [(leftFiled key entry found).keyed]
    exact rightFiled.mem_values_iff.mp listed
  · intro found
    have listed := (shared entry passes).mpr (KeyTable.mem_values_iff.mpr ⟨key, found⟩)
    rw [(rightFiled key entry found).keyed]
    exact leftFiled.mem_values_iff.mp listed

end Store

end Directory
