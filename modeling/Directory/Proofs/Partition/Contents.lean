import Directory.Partition.Basic
import Directory.Proofs.Name.StorageKey
import Directory.Proofs.Name.Tree

namespace Directory

/-! # Contents of stores

What is bound in a store after each of its operations, and what relocation makes of names. -/

namespace Store

variable {store : Store} {entry : Entry} {dn other : Dn} {key : Text}

theorem find?_eq_of_path (store : Store) (same : dn.path = other.path) :
    store.find? dn = store.find? other := by
  rw [find?, find?, Dn.storageKey_eq_of_path same]

theorem holds_iff : store.holds dn = true ↔ ∃ entry, store.get? dn.storageKey = some entry :=
  Option.isSome_iff_exists

theorem holds_put : (store.put entry).holds dn = true ↔
    entry.dn.storageKey = dn.storageKey ∨ store.holds dn = true := by
  simp only [holds, find?_put]
  split <;> simp_all

theorem isUnder_iff : isUnder dn key = true ↔ dn.storageKey <+: key := List.isPrefixOf_iff_prefix

theorem mem_subtree_iff : entry ∈ store.subtree dn ↔
    ∃ key, store.get? key = some entry ∧ dn.storageKey <+: key := by
  simp only [subtree, KeyTable.mem_values_iff, KeyTable.get?_filter, Option.filter_eq_some_iff,
    isUnder_iff]

/-- A held name without children has only its own key in its tree. -/
theorem eq_storageKey_of_not_hasChildren (childless : store.hasChildren dn = false)
    (held : store.holds dn = true) (found : store.get? key = some entry)
    (starts : dn.storageKey <+: key) : key = dn.storageKey := by
  obtain ⟨top, bound⟩ := holds_iff.mp held
  have few : (store.subtree dn).length ≤ 1 := by simpa [hasChildren] using childless
  have inTree : ∀ {key entry}, store.get? key = some entry → dn.storageKey <+: key →
      (store.filter fun key _ => isUnder dn key).get? key = some entry := by
    intro key entry found starts
    rw [KeyTable.get?_filter, found, Option.filter_some, if_pos (isUnder_iff.mpr starts)]
  exact KeyTable.key_eq_of_length_values_le_one few (inTree found starts)
    (inTree bound (List.prefix_refl _))

theorem get?_outside : (store.filter fun key _ => !isUnder dn key).get? key = some entry ↔
    store.get? key = some entry ∧ ¬ dn.storageKey <+: key := by
  rw [KeyTable.get?_filter, Option.filter_eq_some_iff, ← isUnder_iff]
  simp

theorem get?_foldl_put {entries : List Entry}
    (found : (entries.foldl Store.put store).get? key = some entry) :
    (entry ∈ entries ∧ key = entry.dn.storageKey) ∨ store.get? key = some entry := by
  induction entries generalizing store with
  | nil => exact .inr found
  | cons first rest ih =>
    rcases ih found with ⟨member, named⟩ | kept
    · exact .inl ⟨List.mem_cons_of_mem _ member, named⟩
    · rw [put, KeyTable.get?_insert] at kept
      split at kept
      · next same =>
        cases kept
        exact .inl ⟨List.mem_cons_self, same.symm⟩
      · exact .inr kept

theorem get?_foldl_put_of_apart {entries : List Entry}
    (apart : ∀ entry ∈ entries, entry.dn.storageKey ≠ key) :
    (entries.foldl Store.put store).get? key = store.get? key := by
  induction entries generalizing store with
  | nil => rfl
  | cons first rest ih =>
    obtain ⟨firstApart, restApart⟩ := List.forall_mem_cons.mp apart
    rw [List.foldl_cons, ih restApart, put, KeyTable.get?_insert, if_neg firstApart]

theorem holds_foldl_put {entries : List Entry} :
    (entries.foldl Store.put store).holds dn = true ↔
      (∃ entry ∈ entries, entry.dn.storageKey = dn.storageKey) ∨ store.holds dn = true := by
  induction entries generalizing store with
  | nil => simp
  | cons first rest ih =>
    rw [List.foldl_cons, ih, holds_put]
    simp only [List.mem_cons, exists_eq_or_imp]
    grind

/-- The store after the tree under `source` went to the place of `replacement`. -/
def relocate (store : Store) (source : Dn) (replacement : Entry) : Store :=
  ((store.subtree source).map (Partition.relocated source replacement)).foldl put
    (store.filter fun key _ => !isUnder source key)

variable {source : Dn} {replacement : Entry}

theorem get?_relocate (found : (store.relocate source replacement).get? key = some entry) :
    (∃ origin ∈ store.subtree source, Partition.relocated source replacement origin = entry ∧
        key = entry.dn.storageKey) ∨
      store.get? key = some entry ∧ ¬ source.storageKey <+: key := by
  rcases get?_foldl_put found with ⟨member, named⟩ | kept
  · obtain ⟨origin, inside, same⟩ := List.mem_map.mp member
    exact .inl ⟨origin, inside, same, named⟩
  · exact .inr (get?_outside.mp kept)

theorem holds_relocate : (store.relocate source replacement).holds dn = true ↔
    (∃ origin ∈ store.subtree source,
        (Partition.relocated source replacement origin).dn.storageKey = dn.storageKey) ∨
      store.holds dn = true ∧ ¬ source.storageKey <+: dn.storageKey := by
  rw [relocate, holds_foldl_put]
  simp only [List.mem_map, exists_exists_and_eq_and, holds_iff, get?_outside, exists_and_right]

end Store

namespace Partition

variable {source suffix : Dn} {replacement entry : Entry}

/-- Within the moved tree an entry keeps its steps below the top. -/
theorem relocated_path (replacement : Entry) (lies : source.isAncestorOrSelfOf entry.dn = true) :
    ∃ steps, entry.dn.path = steps ++ source.path ∧
      (relocated source replacement entry).dn.path = steps ++ replacement.dn.path := by
  by_cases top : (entry.dn == source) = true
  · exact ⟨[], Dn.beq_iff_path.mp top, by rw [relocated, if_pos top, List.nil_append]⟩
  · refine ⟨_, Dn.path_eq_append lies, ?_⟩
    rw [relocated, if_neg top, Dn.rebase?_eq_some_iff.mpr ⟨lies, rfl⟩]
    exact Dn.path_below _ replacement.dn

theorem relocated_isOwned (owned : suffix.isAncestorOrSelfOf entry.dn = true)
    (replacementOwned : suffix.isAncestorOrSelfOf replacement.dn = true) :
    suffix.isAncestorOrSelfOf (relocated source replacement entry).dn = true := by
  by_cases lies : source.isAncestorOrSelfOf entry.dn = true
  · obtain ⟨steps, _, moved⟩ := relocated_path replacement lies
    rw [Dn.isAncestorOrSelfOf_iff, moved]
    exact (Dn.isAncestorOrSelfOf_iff.mp replacementOwned).trans (List.suffix_append steps _)
  · have top : ¬ (entry.dn == source) = true := by
      intro same
      exact lies (Dn.isAncestorOrSelfOf_iff.mpr (Dn.beq_iff_path.mp same ▸ List.suffix_rfl))
    rwa [relocated, if_neg top, Dn.rebase?, Dn.relativeTo?, if_neg lies]

/-- A moved entry is kept under the new name or stays under the old one. -/
theorem relocated_storageKey (starts : source.storageKey <+: entry.dn.storageKey) :
    source.storageKey <+: (relocated source replacement entry).dn.storageKey ∨
      replacement.dn.storageKey <+: (relocated source replacement entry).dn.storageKey := by
  unfold relocated
  split
  · exact .inr List.prefix_rfl
  · split
    · next moved rebased =>
      obtain ⟨_, rfl⟩ := Dn.rebase?_eq_some_iff.mp rebased
      exact .inr (Dn.storageKey_isPrefix_below _ replacement.dn)
    · exact .inl starts

theorem forall_rdns_relocated {holds : Rdn → Prop} (entryHolds : ∀ rdn ∈ entry.dn.rdns, holds rdn)
    (replacementHolds : ∀ rdn ∈ replacement.dn.rdns, holds rdn) :
    ∀ rdn ∈ (relocated source replacement entry).dn.rdns, holds rdn := by
  unfold relocated
  split
  · exact replacementHolds
  · split
    · next moved rebased =>
      obtain ⟨_, rfl⟩ := Dn.rebase?_eq_some_iff.mp rebased
      intro rdn member
      rcases List.mem_append.mp member with member | member
      · exact entryHolds rdn (List.mem_of_mem_take member)
      · exact replacementHolds rdn member
    · exact entryHolds

theorem relocated_hasPlainTypes (entryPlain : entry.dn.HasPlainTypes)
    (replacementPlain : replacement.dn.HasPlainTypes) :
    (relocated source replacement entry).dn.HasPlainTypes :=
  forall_rdns_relocated entryPlain replacementPlain

end Partition

end Directory
