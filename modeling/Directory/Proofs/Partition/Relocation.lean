import Directory.Proofs.Partition.Registration
import Directory.Proofs.Partition.Writes

namespace Directory

/-! # What was moved is found where it went

A tree goes to a free place or stays in its own.  Nothing else that moves along with its top comes
to have the top's new key, so the top is found there. -/

namespace Store

variable {store : Store} {suffix source : Dn} {before moved origin : Entry}

theorem IsFiled.eq_of_storageKey (filed : store.IsFiled suffix) {key : Text}
    (bound : store.get? key = some origin) (stored : store.find? source = some before)
    (same : origin.dn.storageKey = source.storageKey) : origin = before := by
  rw [(filed key origin bound).keyed, same] at bound
  exact Option.some.inj (bound.symm.trans stored)

/-- Of what moves, the top alone comes under the new key. -/
theorem IsFiled.eq_of_relocated (filed : store.IsFiled suffix)
    (stored : store.find? source = some before) (named : (before.dn == source) = true)
    (free : moved.dn.storageKey ≠ source.storageKey → store.holds moved.dn = false)
    (inside : origin ∈ store.subtree source)
    (keyed : (Partition.relocated source moved origin).dn.storageKey = moved.dn.storageKey) :
    Partition.relocated source moved origin = moved := by
  obtain ⟨key, bound, _⟩ := mem_subtree_iff.mp inside
  by_cases top : (origin.dn == source) = true
  · rw [Partition.relocated, if_pos top]
  · rw [Partition.relocated, if_neg top] at keyed
    exfalso
    cases rebased : origin.dn.rebase? source moved.dn with
    | some dn =>
      obtain ⟨lies, rfl⟩ := Dn.rebase?_eq_some_iff.mp rebased
      rw [rebased] at keyed
      refine Dn.storageKey_below_ne (fun none => top ?_) moved.dn keyed
      have paths := Dn.path_eq_append lies
      rw [none] at paths
      exact Dn.beq_iff_path.mpr paths
    | none =>
      rw [rebased] at keyed
      have elsewhere : moved.dn.storageKey ≠ source.storageKey := by
        intro same
        rw [filed.eq_of_storageKey bound stored (keyed.trans same)] at top
        exact top named
      have taken : store.holds moved.dn = true :=
        holds_iff.mpr ⟨origin, by rw [← keyed, ← (filed key origin bound).keyed, bound]⟩
      rw [free elsewhere] at taken
      contradiction

theorem IsFiled.find?_relocate (filed : store.IsFiled suffix)
    (stored : store.find? source = some before) (named : (before.dn == source) = true)
    (free : moved.dn.storageKey ≠ source.storageKey → store.holds moved.dn = false) :
    (store.relocate source moved).find? moved.dn = some moved := by
  have topInside : before ∈ store.subtree source :=
    mem_subtree_iff.mpr ⟨_, stored, List.prefix_rfl⟩
  have held : (store.relocate source moved).holds moved.dn = true :=
    holds_relocate.mpr (.inl ⟨before, topInside, by rw [Partition.relocated, if_pos named]⟩)
  obtain ⟨found, bound⟩ := holds_iff.mp held
  rw [find?, bound]
  rcases get?_relocate bound with ⟨origin, inside, rfl, keyed⟩ | ⟨kept, apart⟩
  · rw [filed.eq_of_relocated stored named free inside keyed.symm]
  · have elsewhere : moved.dn.storageKey ≠ source.storageKey := by
      intro same
      exact apart (same ▸ List.prefix_rfl)
    have taken : store.holds moved.dn = true := holds_iff.mpr ⟨found, kept⟩
    rw [free elsewhere] at taken
    contradiction

end Store

theorem Partition.find?_effect_relocate {partition : Partition} {source : Dn} {before moved : Entry}
    (filed : partition.store.IsFiled partition.suffix)
    (admitted : partition.admits (.relocate source moved) = .ok ())
    (stored : partition.store.find? source = some before)
    (named : (before.dn == source) = true) :
    Store.find? (partition.effect (.relocate source moved)) moved.dn = some moved := by
  refine filed.find?_relocate stored named fun elsewhere => ?_
  simp only [admits, bind_eq_ok_iff, refuseIf_eq_ok_iff] at admitted
  obtain ⟨_, _, _, _, _, _, _, _, _, free, _⟩ := admitted
  simpa [elsewhere] using free

namespace NamingContexts

variable {contexts after : NamingContexts} {partition : Partition} {write : Partition.Write}
  {dn : Dn}

theorem Performs.resolve?_eq (performed : contexts.Performs partition write after)
    (distinct : contexts.HasDistinctIds) (separated : contexts.IsSeparated)
    (owned : partition.suffix.isAncestorOrSelfOf dn = true) :
    after.resolve? dn = some { partition with store := partition.effect write } := by
  have afterSeparated : after.IsSeparated := by
    rw [isSeparated_iff_frame, performed.frame_eq distinct]
    exact isSeparated_iff_frame.mp separated
  rw [afterSeparated.resolve?_eq_some_iff, performed.result]
  refine ⟨List.mem_map.mpr ⟨partition, performed.member, ?_⟩, owned⟩
  rw [beq_self_eq_true, if_pos rfl]

end NamingContexts

end Directory
