import Directory.Proofs.Partition.Contexts
import Directory.Proofs.Partition.TreeMoves
import Mathlib.Data.List.Forall2

namespace Directory

/-! # Moves back

When a tree that was moved goes back to the place it came from, every entry is again where it was.
The names are equal as names are compared; their spelling may be that of the second move. -/

/-- The entries have one name, however it is spelled, and the same attributes. -/
structure Entry.Equals (left right : Entry) : Prop where
  named : (left.dn == right.dn) = true
  attributes : left.attributes = right.attributes

/-- The stores list equal entries. -/
def Store.SameEntries (left right : Store) : Prop :=
  List.Forall₂ Entry.Equals left.values right.values

/-- The same partitions, whose stores list equal entries. -/
def NamingContexts.SameEntries (left right : NamingContexts) : Prop :=
  List.Forall₂
    (fun ours theirs : Partition => ours.id = theirs.id ∧ ours.suffix = theirs.suffix ∧
      ours.store.SameEntries theirs.store)
    left.partitions right.partitions

/-- The partition when a write has been carried out. -/
abbrev Partition.after (partition : Partition) (write : Partition.Write) : Partition :=
  { partition with store := partition.effect write }

namespace KeyTable

variable {α β : Type} {left right : KeyTable α}

/-- The table with every value changed. -/
def map (change : α → β) (table : KeyTable α) : KeyTable β :=
  ⟨table.bindings.map fun binding => (binding.1, change binding.2),
    List.pairwise_map.mpr table.ascending⟩

theorem get?_map (change : α → β) (table : KeyTable α) (key : Text) :
    (table.map change).get? key = (table.get? key).map change := by
  simp only [get?, map, List.find?_map, Option.map_map]
  rfl

theorem values_map (change : α → β) (table : KeyTable α) :
    (table.map change).values = table.values.map change := by
  simp only [values, map, List.map_map]
  rfl

theorem forall₂_values_of_get? {shown : α → β}
    (same : ∀ key, (left.get? key).map shown = (right.get? key).map shown) :
    List.Forall₂ (fun ours theirs => shown ours = shown theirs) left.values right.values := by
  have tables : left.map shown = right.map shown :=
    ext_get? fun key => by rw [get?_map, get?_map, same]
  have lists := congrArg values tables
  rw [values_map, values_map, ← List.forall₂_eq_eq_eq, List.forall₂_map_left_iff,
    List.forall₂_map_right_iff] at lists
  exact lists

end KeyTable

namespace Partition

variable {partition : Partition} {write : Write} {source name : Dn} {replacement entry : Entry}

theorem attributes_relocated
    (top : (entry.dn == source) = true → replacement.attributes = entry.attributes) :
    (relocated source replacement entry).attributes = entry.attributes := by
  unfold relocated
  split
  · next same => exact top same
  · split <;> rfl

theorem find?_effect_of_apart (filed : partition.store.IsFiled partition.suffix)
    (plain : ∀ dn ∈ write.names, dn.HasPlainTypes) (namePlain : name.HasPlainTypes)
    (apart : ∀ dn ∈ write.names, dn.isAncestorOrSelfOf name = false) :
    (partition.effect write).find? name = partition.store.find? name := by
  refine get?_effect_of_outside filed fun dn named starts => ?_
  have lies := (Dn.storageKey_isPrefix_iff (plain dn named) namePlain).mp starts
  simp [apart dn named] at lies

end Partition

namespace Store

variable {store after : Store} {suffix afterSuffix source : Dn} {image : Entry → Entry}
  {before moved returned entry : Entry}

/-- A store whose entries are those of another, each changed into an equal one, lists the same. -/
theorem IsFiled.sameEntries_of_images (filed : store.IsFiled suffix)
    (afterFiled : after.IsFiled afterSuffix)
    (images : ∀ entry, entry ∈ after.values ↔ ∃ origin ∈ store.values, image origin = entry)
    (kept : ∀ origin ∈ store.values, (image origin).Equals origin) : after.SameEntries store := by
  have shows : ∀ key, (after.get? key).map (fun entry => (entry.dn.path, entry.attributes)) =
      (store.get? key).map fun entry => (entry.dn.path, entry.attributes) := by
    intro key
    refine Option.ext fun shown => ?_
    simp only [Option.map_eq_some_iff]
    constructor
    · rintro ⟨entry, bound, rfl⟩
      obtain ⟨origin, listed, rfl⟩ := (images entry).mp (KeyTable.mem_values_iff.mpr ⟨key, bound⟩)
      obtain ⟨named, attributes⟩ := kept origin listed
      have paths := Dn.beq_iff_path.mp named
      refine ⟨origin, ?_, by rw [paths, attributes]⟩
      rw [(afterFiled key _ bound).keyed, Dn.storageKey_eq_of_path paths]
      exact filed.mem_values_iff.mp listed
    · rintro ⟨origin, bound, rfl⟩
      have listed := KeyTable.mem_values_iff.mpr ⟨key, bound⟩
      obtain ⟨named, attributes⟩ := kept origin listed
      have paths := Dn.beq_iff_path.mp named
      refine ⟨image origin, ?_, by rw [paths, attributes]⟩
      rw [(filed key origin bound).keyed, ← Dn.storageKey_eq_of_path paths]
      exact afterFiled.mem_values_iff.mp ((images _).mpr ⟨origin, listed, rfl⟩)
  refine (KeyTable.forall₂_values_of_get? shows).imp fun ours theirs same => ?_
  exact ⟨Dn.beq_iff_path.mpr (Prod.mk.inj same).1, (Prod.mk.inj same).2⟩

/-- The way there and back leads each entry to its own name. -/
theorem IsTree.path_returned (tree : store.IsTree suffix)
    (place : store.HasPlace suffix source moved.dn) (home : returned.dn.path = source.path)
    (listed : entry ∈ store.values) :
    (Partition.relocated moved.dn returned (Partition.relocated source moved entry)).dn.path =
      entry.dn.path := by
  cases lies : source.isAncestorOrSelfOf entry.dn with
  | true =>
    obtain ⟨steps, whole, there⟩ := Partition.relocated_path moved lies
    obtain ⟨others, same, again⟩ := Partition.relocated_path returned
      (Dn.isAncestorOrSelfOf_iff.mpr ⟨steps, there.symm⟩)
    obtain rfl : steps = others := List.append_cancel_right (there.symm.trans same)
    rw [again, home, whole]
  | false =>
    rw [Partition.relocated_of_apart moved lies,
      Partition.relocated_of_apart returned (tree.apart_of_place place listed lies)]

theorem IsTree.attributes_returned (tree : store.IsTree suffix)
    (place : store.HasPlace suffix source moved.dn) (stored : store.find? source = some before)
    (sameMoved : moved.attributes = before.attributes)
    (sameReturned : returned.attributes = before.attributes) (listed : entry ∈ store.values) :
    (Partition.relocated moved.dn returned (Partition.relocated source moved entry)).attributes =
      entry.attributes := by
  have topListed : before ∈ store.values := KeyTable.mem_values_iff.mpr ⟨_, stored⟩
  have named := tree.path_of_find? place.sourcePlain stored
  have there : (Partition.relocated source moved entry).attributes = entry.attributes := by
    refine Partition.attributes_relocated fun top => ?_
    have same := tree.isFiled.eq_of_path listed topListed
      ((Dn.beq_iff_path.mp top).trans named.symm)
    rw [same, sameMoved]
  rw [← there]
  refine Partition.attributes_relocated fun top => ?_
  have isMoved : Partition.relocated source moved before = moved := by
    rw [Partition.relocated, if_pos (Dn.beq_iff_path.mpr named)]
  have same := tree.eq_of_relocated_path place listed topListed
    ((Dn.beq_iff_path.mp top).trans (congrArg (·.dn.path) isMoved.symm))
  rw [there, same, sameReturned]

theorem IsTree.sameEntries_of_return (tree : store.IsTree suffix)
    (place : store.HasPlace suffix source moved.dn)
    (afterTree : (store.relocate source moved).IsTree suffix)
    (back : (store.relocate source moved).HasPlace suffix moved.dn returned.dn)
    (home : returned.dn.path = source.path) (stored : store.find? source = some before)
    (sameMoved : moved.attributes = before.attributes)
    (sameReturned : returned.attributes = before.attributes) :
    ((store.relocate source moved).relocate moved.dn returned).SameEntries store := by
  refine tree.isFiled.sameEntries_of_images (afterTree.isFiled.relocate back.owned) ?_
    fun entry listed => ⟨Dn.beq_iff_path.mpr (tree.path_returned place home listed),
      tree.attributes_returned place stored sameMoved sameReturned listed⟩
  intro entry
  rw [afterTree.mem_relocate_iff back]
  constructor
  · rintro ⟨middle, listed, rfl⟩
    obtain ⟨origin, originListed, rfl⟩ := (tree.mem_relocate_iff place).mp listed
    exact ⟨origin, originListed, rfl⟩
  · rintro ⟨origin, listed, rfl⟩
    exact ⟨_, (tree.mem_relocate_iff place).mpr ⟨origin, listed, rfl⟩, rfl⟩

theorem SameEntries.refl (store : Store) : store.SameEntries store :=
  List.forall₂_same.mpr fun _ _ => ⟨Dn.beq_iff_path.mpr rfl, rfl⟩

end Store

namespace NamingContexts

variable {contexts middle last : NamingContexts} {partition : Partition}
  {write back : Partition.Write}

theorem Performs.sameEntries_of_return (performed : contexts.Performs partition write middle)
    (returned : middle.Performs (partition.after write) back last)
    (distinct : contexts.HasDistinctIds)
    (same : Store.SameEntries ((partition.after write).effect back) partition.store) :
    last.SameEntries contexts := by
  rw [SameEntries, returned.result, performed.result, List.map_map, List.forall₂_map_left_iff,
    List.forall₂_same]
  intro other listed
  by_cases found : other.id = partition.id
  · obtain rfl := distinct.eq_of_id listed performed.member found
    simpa using same
  · simpa [found] using Store.SameEntries.refl other.store

end NamingContexts

end Directory
