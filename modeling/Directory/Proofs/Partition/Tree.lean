import Directory.Proofs.Partition.Contents

namespace Directory

/-! # Stores that are trees

A store is filed when every entry is kept under the key of its own name, at or below a suffix.
It is a tree when each entry other than the one at the suffix has its superior beside it.  The
second needs names whose compared types hold no equals sign, since only their keys tell what
lies below what. -/

structure Entry.Filed (entry : Entry) (suffix : Dn) (key : Text) : Prop where
  keyed : key = entry.dn.storageKey
  owned : suffix.isAncestorOrSelfOf entry.dn = true

/-- What a bound entry has in a tree under a suffix. -/
structure Store.Seats (store : Store) (suffix : Dn) (key : Text) (entry : Entry) : Prop
    extends entry.Filed suffix key where
  plain : entry.dn.HasPlainTypes
  superior : entry.dn.path ≠ suffix.path →
    ∃ parent, entry.dn.parent? = some parent ∧ store.holds parent = true

def Store.IsFiled (store : Store) (suffix : Dn) : Prop :=
  ∀ key entry, store.get? key = some entry → entry.Filed suffix key

def Store.IsTree (store : Store) (suffix : Dn) : Prop :=
  ∀ key entry, store.get? key = some entry → store.Seats suffix key entry

/-- No compared type of a stored name holds an equals sign. -/
def Store.HasPlainNames (store : Store) : Prop := ∀ entry ∈ store.values, entry.dn.HasPlainTypes

instance (store : Store) : Decidable store.HasPlainNames := inferInstanceAs (Decidable (∀ _ ∈ _, _))

namespace Store

variable {store after : Store} {suffix source dn : Dn} {entry origin replacement : Entry}
  {key : Text}

theorem isFiled_empty (suffix : Dn) : IsFiled .empty suffix := nofun

theorem IsFiled.put (filed : store.IsFiled suffix)
    (owned : suffix.isAncestorOrSelfOf entry.dn = true) : (store.put entry).IsFiled suffix :=
  KeyTable.forall_insert filed ⟨rfl, owned⟩

theorem IsFiled.erase (filed : store.IsFiled suffix) (erased : Text) :
    IsFiled (store.erase erased) suffix :=
  KeyTable.forall_erase filed erased

theorem IsFiled.relocate (filed : store.IsFiled suffix)
    (owned : suffix.isAncestorOrSelfOf replacement.dn = true) :
    (store.relocate source replacement).IsFiled suffix := by
  intro key found lookup
  rcases get?_relocate lookup with ⟨origin, inside, rfl, named⟩ | ⟨kept, _⟩
  · obtain ⟨_, bound, _⟩ := mem_subtree_iff.mp inside
    exact ⟨named, Partition.relocated_isOwned (filed _ _ bound).owned owned⟩
  · exact filed key found kept

theorem IsFiled.names_distinct (filed : store.IsFiled suffix) :
    store.values.Pairwise fun left right => (left.dn == right.dn) = false := by
  rw [KeyTable.values, List.pairwise_map]
  refine store.ascending.imp_of_mem ?_
  intro first second bound laterBound precedes
  obtain ⟨key, left⟩ := first
  obtain ⟨later, right⟩ := second
  have leftKeyed := (filed key left (KeyTable.get?_eq_some_iff.mpr bound)).keyed
  have rightKeyed := (filed later right (KeyTable.get?_eq_some_iff.mpr laterBound)).keyed
  rw [Bool.eq_false_iff]
  intro same
  have equal := Dn.storageKey_eq_of_path (Dn.beq_iff_path.mp same)
  rw [← leftKeyed, ← rightKeyed] at equal
  simp [equal, Text.precedes_irrefl] at precedes

theorem isTree_empty (suffix : Dn) : IsTree .empty suffix := nofun

theorem IsTree.isFiled (tree : store.IsTree suffix) : store.IsFiled suffix :=
  fun key entry found => (tree key entry found).toFiled

theorem IsTree.hasPlainNames (tree : store.IsTree suffix) : store.HasPlainNames := by
  intro entry listed
  obtain ⟨key, found⟩ := KeyTable.mem_values_iff.mp listed
  exact (tree key entry found).plain

theorem Seats.mono (seated : store.Seats suffix key entry)
    (stays : ∀ dn, store.holds dn = true → after.holds dn = true) :
    after.Seats suffix key entry := by
  refine { seated with superior := fun other => ?_ }
  obtain ⟨parent, isParent, held⟩ := seated.superior other
  exact ⟨parent, isParent, stays parent held⟩

theorem IsTree.path_of_find? (tree : store.IsTree suffix) (plain : dn.HasPlainTypes)
    (found : store.find? dn = some entry) : entry.dn.path = dn.path :=
  have seated := tree _ _ found
  ((Dn.storageKey_inj plain seated.plain).mp seated.keyed).symm

theorem exists_held_parent {above : Dn} {step : Text × Text} (held : store.holds above = true)
    (named : dn.path = step :: above.path) :
    ∃ parent, dn.parent? = some parent ∧ store.holds parent = true := by
  obtain ⟨parent, isParent, paths⟩ := Dn.exists_parent?_of_path named
  exact ⟨parent, isParent, by rwa [holds, find?_eq_of_path store paths]⟩

theorem IsTree.exists_parent (tree : store.IsTree suffix) (plain : dn.HasPlainTypes)
    (held : store.holds dn = true) (other : dn.path ≠ suffix.path) :
    ∃ parent, dn.parent? = some parent ∧ store.holds parent = true := by
  obtain ⟨entry, bound⟩ := holds_iff.mp held
  have same := tree.path_of_find? plain bound
  obtain ⟨above, isAbove, aboveHeld⟩ := (tree _ _ bound).superior (same.trans_ne other)
  obtain ⟨step, named⟩ := Dn.exists_path_eq_of_parent? isAbove
  exact exists_held_parent aboveHeld (same.symm.trans named)

theorem IsTree.put (tree : store.IsTree suffix)
    (seated : store.Seats suffix entry.dn.storageKey entry) : (store.put entry).IsTree suffix := by
  intro key found lookup
  refine Seats.mono ?_ fun dn held => holds_put.mpr (.inr held)
  rw [Store.put, KeyTable.get?_insert] at lookup
  split at lookup
  · next same =>
    cases lookup
    exact same ▸ seated
  · exact tree key found lookup

/-- A name can go when nothing lies below it. -/
theorem IsTree.erase (tree : store.IsTree suffix)
    (leaf : ∀ key entry, store.get? key = some entry → dn.storageKey <+: key →
      key = dn.storageKey) :
    IsTree (store.erase dn.storageKey) suffix := by
  intro key found lookup
  rw [KeyTable.get?_erase] at lookup
  split at lookup
  · contradiction
  · next different =>
    have seated := tree key found lookup
    refine { seated with superior := fun other => ?_ }
    obtain ⟨parent, isParent, held⟩ := seated.superior other
    obtain ⟨above, bound⟩ := holds_iff.mp held
    have apart : dn.storageKey ≠ parent.storageKey := by
      intro same
      have below : dn.storageKey <+: key := by
        rw [seated.keyed, same]
        exact Dn.parent_storageKey_isPrefix isParent
      exact different (leaf key found lookup below).symm
    refine ⟨parent, isParent, holds_iff.mpr ⟨above, ?_⟩⟩
    rw [KeyTable.get?_erase, if_neg apart, bound]

theorem IsTree.mem_subtree (tree : store.IsTree suffix) (sourcePlain : source.HasPlainTypes)
    (inside : origin ∈ store.subtree source) :
    store.Seats suffix origin.dn.storageKey origin ∧
      source.isAncestorOrSelfOf origin.dn = true := by
  obtain ⟨key, bound, starts⟩ := mem_subtree_iff.mp inside
  have seated := tree key origin bound
  obtain rfl := seated.keyed
  exact ⟨seated, (Dn.storageKey_isPrefix_iff sourcePlain seated.plain).mp starts⟩

theorem IsTree.exists_moved_parent (tree : store.IsTree suffix)
    (sourcePlain : source.HasPlainTypes) (sourceOwned : suffix.isAncestorOrSelfOf source = true)
    (seated : store.Seats suffix key origin) {step : Text × Text} {later : List (Text × Text)}
    (named : origin.dn.path = step :: (later ++ source.path))
    (movedNamed : dn.path = step :: (later ++ replacement.dn.path)) :
    ∃ parent, dn.parent? = some parent ∧
      (store.relocate source replacement).holds parent = true := by
  have longer : origin.dn.path ≠ suffix.path := by
    intro same
    have bound := (Dn.isAncestorOrSelfOf_iff.mp sourceOwned).length_le
    rw [← same, named] at bound
    simp only [List.length_cons, List.length_append] at bound
    omega
  obtain ⟨above, isAbove, held⟩ := seated.superior longer
  have aboveNamed : above.path = later ++ source.path := by
    obtain ⟨key, fromParent⟩ := Dn.exists_path_eq_of_parent? isAbove
    exact (List.cons.inj (fromParent.symm.trans named)).2
  obtain ⟨middle, bound⟩ := holds_iff.mp held
  have abovePlain := seated.plain.parent isAbove
  have middleNamed := (tree.path_of_find? abovePlain bound).trans aboveNamed
  have upper : source.isAncestorOrSelfOf above = true :=
    Dn.isAncestorOrSelfOf_iff.mpr ⟨later, aboveNamed.symm⟩
  have inside : middle ∈ store.subtree source :=
    mem_subtree_iff.mpr ⟨_, bound, (Dn.storageKey_isPrefix_iff sourcePlain abovePlain).mpr upper⟩
  obtain ⟨parent, isParent, parentNamed⟩ := Dn.exists_parent?_of_path movedNamed
  refine ⟨parent, isParent, holds_relocate.mpr (.inl ⟨middle, inside, ?_⟩)⟩
  obtain ⟨steps, whole, moved⟩ := Partition.relocated_path replacement
    (tree.mem_subtree sourcePlain inside).2
  have sameSteps : steps = later := List.append_cancel_right (whole.symm.trans middleNamed)
  exact Dn.storageKey_eq_of_path (by rw [moved, sameSteps, parentNamed])

/-- Moving the tree under `source` to a place whose superior lies outside of it. -/
theorem IsTree.relocate (tree : store.IsTree suffix) (sourcePlain : source.HasPlainTypes)
    (plain : replacement.dn.HasPlainTypes)
    (sourceOwned : suffix.isAncestorOrSelfOf source = true)
    (owned : suffix.isAncestorOrSelfOf replacement.dn = true)
    (outside : source.isAncestorOf replacement.dn = false)
    (superior : replacement.dn.path ≠ suffix.path →
      ∃ parent, replacement.dn.parent? = some parent ∧ store.holds parent = true) :
    (store.relocate source replacement).IsTree suffix := by
  intro key found lookup
  rcases get?_relocate lookup with ⟨origin, inside, rfl, named⟩ | ⟨kept, apart⟩
  · obtain ⟨seated, lies⟩ := tree.mem_subtree sourcePlain inside
    obtain ⟨steps, whole, moved⟩ := Partition.relocated_path replacement lies
    refine ⟨tree.isFiled.relocate owned _ _ lookup,
      Partition.relocated_hasPlainTypes seated.plain plain, fun other => ?_⟩
    cases steps with
    | nil =>
      obtain ⟨above, isAbove, held⟩ := superior (by simpa [moved] using other)
      obtain ⟨step, fromParent⟩ := Dn.exists_path_eq_of_parent? isAbove
      have aboveApart : ¬ source.storageKey <+: above.storageKey := by
        intro starts
        have upper := (Dn.storageKey_isPrefix_iff sourcePlain (plain.parent isAbove)).mp starts
        have strict := Dn.isAncestorOf_of_parent isAbove upper
        simp [strict] at outside
      exact exists_held_parent (holds_relocate.mpr (.inr ⟨held, aboveApart⟩))
        (moved.trans fromParent)
    | cons step later =>
      exact tree.exists_moved_parent sourcePlain sourceOwned seated whole moved
  · have seated := tree key found kept
    refine { seated with superior := fun other => ?_ }
    obtain ⟨parent, isParent, held⟩ := seated.superior other
    refine ⟨parent, isParent, holds_relocate.mpr (.inr ⟨held, fun starts => apart ?_⟩)⟩
    rw [seated.keyed]
    exact starts.trans (Dn.parent_storageKey_isPrefix isParent)

end Store

end Directory
