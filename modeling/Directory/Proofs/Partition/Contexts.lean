import Directory.Partition.NamingContexts
import Mathlib.Data.List.Pairwise

namespace Directory.NamingContexts

/-! # Writes on naming contexts

A write on naming contexts is one on the partition with the given identifier.  Identifiers are
distinct, so the other partitions stay as they are, and so do all identifiers and suffixes. -/

def HasDistinctIds (contexts : NamingContexts) : Prop :=
  contexts.partitions.Pairwise fun left right => left.id ≠ right.id

/-- Which partitions there are, and what they own. -/
def frame (contexts : NamingContexts) : List (Text × Dn) :=
  contexts.partitions.map fun partition => (partition.id, partition.suffix)

/-- One partition carries out a write that it admits; the others stay as they are. -/
structure Performs (before : NamingContexts) (partition : Partition) (write : Partition.Write)
    (after : NamingContexts) : Prop where
  member : partition ∈ before.partitions
  admitted : partition.admits write = .ok ()
  result : after.partitions = before.partitions.map fun other =>
    if other.id == partition.id then { partition with store := partition.effect write } else other

variable {contexts after : NamingContexts} {partition other : Partition} {write : Partition.Write}

theorem HasDistinctIds.eq_of_id (distinct : contexts.HasDistinctIds)
    (member : partition ∈ contexts.partitions) (otherMember : other ∈ contexts.partitions)
    (same : partition.id = other.id) : partition = other := by
  by_contra different
  have symmetric : Std.Symm fun left right : Partition => left.id ≠ right.id :=
    ⟨fun _ _ apart => apart.symm⟩
  exact distinct.forall member otherMember different same

theorem HasDistinctIds.partition?_eq_some (distinct : contexts.HasDistinctIds)
    (member : partition ∈ contexts.partitions) :
    contexts.partition? partition.id = some partition := by
  cases found : contexts.partition? partition.id with
  | none =>
    have absent := List.find?_eq_none.mp found partition member
    simp at absent
  | some first =>
    have same : first.id = partition.id := by simpa using List.find?_some found
    rw [distinct.eq_of_id (List.mem_of_find?_eq_some found) member same]

/-- A write that is not carried out leaves the naming contexts as they are. -/
theorem perform_cases (distinct : contexts.HasDistinctIds)
    (member : partition ∈ contexts.partitions) (write : Partition.Write) :
    (contexts.perform partition.id write).2 = contexts ∨
      (contexts.perform partition.id write).1 = .ok () ∧
        contexts.Performs partition write (contexts.perform partition.id write).2 := by
  rw [perform, distinct.partition?_eq_some member]
  cases answer : partition.admits write with
  | ok =>
    simp only [Partition.perform_of_admits answer, true_and]
    exact .inr ⟨member, answer, rfl⟩
  | error refusal =>
    refine .inl ?_
    have unchanged : ∀ other ∈ contexts.partitions,
        (if (other.id == partition.id) = true then partition else other) = other := by
      intro other listed
      split
      · next same => exact (distinct.eq_of_id listed member (beq_iff_eq.mp same)).symm
      · rfl
    simp only [Partition.perform_of_refused answer]
    rw [List.map_congr_left unchanged, List.map_id']

theorem performs_of_perform (distinct : contexts.HasDistinctIds)
    (member : partition ∈ contexts.partitions)
    (answered : (contexts.perform partition.id write).1 = .ok ()) :
    contexts.Performs partition write (contexts.perform partition.id write).2 := by
  rw [perform, distinct.partition?_eq_some member] at answered ⊢
  cases answer : partition.admits write with
  | error refusal => simp [Partition.perform_of_refused answer] at answered
  | ok =>
    simp only [Partition.perform_of_admits answer]
    exact ⟨member, answer, rfl⟩

theorem Performs.mem_cases (performed : contexts.Performs partition write after)
    (member : other ∈ after.partitions) :
    other = { partition with store := partition.effect write } ∨ other ∈ contexts.partitions := by
  rw [performed.result] at member
  obtain ⟨origin, listed, rfl⟩ := List.mem_map.mp member
  split
  · exact .inl rfl
  · exact .inr listed

theorem hasDistinctIds_iff : contexts.HasDistinctIds ↔
    contexts.frame.Pairwise fun left right => left.1 ≠ right.1 := by
  simp only [HasDistinctIds, frame, List.pairwise_map]

theorem Performs.frame_eq (performed : contexts.Performs partition write after)
    (distinct : contexts.HasDistinctIds) : after.frame = contexts.frame := by
  rw [frame, frame, performed.result, List.map_map]
  refine List.map_congr_left fun other listed => ?_
  simp only [Function.comp_apply]
  split
  · next same =>
    rw [distinct.eq_of_id listed performed.member (beq_iff_eq.mp same)]
  · rfl

theorem partitions_perform (distinct : contexts.HasDistinctIds) (id : Text)
    (write : Partition.Write) :
    (contexts.perform id write).2.partitions = contexts.partitions.map fun partition =>
      if partition.id == id then (partition.perform write).2 else partition := by
  unfold perform
  cases found : contexts.partition? id with
  | none =>
    have absent := List.find?_eq_none.mp found
    have unchanged : ∀ partition ∈ contexts.partitions,
        (if partition.id == id then (partition.perform write).2 else partition) = partition :=
      fun partition listed => if_neg (absent partition listed)
    exact ((List.map_congr_left unchanged).trans (List.map_id' _)).symm
  | some partition =>
    have listed := List.mem_of_find?_eq_some found
    have named : partition.id = id := by simpa using List.find?_some found
    refine List.map_congr_left fun other otherListed => ?_
    split
    · next same =>
      rw [distinct.eq_of_id otherListed listed ((beq_iff_eq.mp same).trans named.symm)]
    · rfl

theorem frame_perform (distinct : contexts.HasDistinctIds) (id : Text) (write : Partition.Write) :
    (contexts.perform id write).2.frame = contexts.frame := by
  rw [frame, frame, partitions_perform distinct, List.map_map]
  refine List.map_congr_left fun partition _ => ?_
  rw [Function.comp_apply]
  split
  · rw [Partition.id_perform, Partition.suffix_perform]
  · rfl

theorem HasDistinctIds.perform (distinct : contexts.HasDistinctIds) (id : Text)
    (write : Partition.Write) : (contexts.perform id write).2.HasDistinctIds := by
  rw [hasDistinctIds_iff, frame_perform distinct]
  exact hasDistinctIds_iff.mp distinct

end Directory.NamingContexts
