import Directory.Proofs.Partition.Contents

namespace Directory

/-! # Where stored entries come from

After a write an entry is the one that the write brought, or it was there before; a move only
exchanges what lies above the leaf of its name.  What holds of entries whatever lies above them
is therefore kept by a write that brings only such entries. -/

/-- The two differ at most in what lies above the leaves of their names. -/
structure Entry.SameButSuperiors (entry origin : Entry) : Prop where
  attributes : entry.attributes = origin.attributes
  leaf : entry.dn.rdn? = origin.dn.rdn?

theorem Entry.SameButSuperiors.refl (entry : Entry) : entry.SameButSuperiors entry := ⟨rfl, rfl⟩

/-- The entry that a write brings. -/
def Partition.Write.entry? : Partition.Write → Option Entry
  | create entry | update entry | relocate _ entry => some entry
  | delete _ => none

namespace Dn

variable {dn source target moved : Dn}

/-- A name that is exchanged above keeps its leaf, unless it is the very name exchanged. -/
theorem rdn?_of_rebase? (rebased : dn.rebase? source target = some moved)
    (other : dn.path ≠ source.path) : moved.rdn? = dn.rdn? := by
  obtain ⟨lies, rfl⟩ := rebase?_eq_some_iff.mp rebased
  have shorter : source.length < dn.length := by
    have bound := (isAncestorOrSelfOf_iff.mp lies).length_le
    rw [length_path, length_path] at bound
    refine Nat.lt_of_le_of_ne bound fun same => other ?_
    exact ((isAncestorOrSelfOf_iff.mp lies).eq_of_length (by simpa using same)).symm
  obtain ⟨rdns⟩ := dn
  cases rdns with
  | nil => simp [length] at shorter
  | cons first rest =>
    obtain ⟨steps, counted⟩ := Nat.exists_eq_add_of_lt shorter
    have taken : (Dn.mk (first :: rest)).length - source.length = steps + 1 := by omega
    simp [rdn?, below, taken]

end Dn

namespace Partition

variable {partition : Partition} {write : Write} {source : Dn} {replacement entry origin : Entry}
  {key : Text}

theorem relocated_cases (source : Dn) (replacement origin : Entry) :
    relocated source replacement origin = replacement ∨
      (relocated source replacement origin).SameButSuperiors origin := by
  by_cases top : (origin.dn == source) = true
  · exact .inl (if_pos top)
  · have other : origin.dn.path ≠ source.path := fun same => top (Dn.beq_iff_path.mpr same)
    rw [relocated, if_neg top]
    cases rebased : origin.dn.rebase? source replacement.dn with
    | none => exact .inr (.refl origin)
    | some dn => exact .inr ⟨rfl, Dn.rdn?_of_rebase? rebased other⟩

theorem origin_of_put (found : (partition.store.put replacement).get? key = some entry) :
    replacement = entry ∨ entry ∈ partition.store.values := by
  rw [Store.put, KeyTable.get?_insert] at found
  split at found
  · exact .inl (Option.some.inj found)
  · exact .inr (KeyTable.mem_values_iff.mpr ⟨key, found⟩)

/-- What holds of the stored entries, of the one that a write brings and of what it moves holds
of all entries after it. -/
theorem forall_effect {holds : Entry → Prop}
    (brought : ∀ entry, write.entry? = some entry → holds entry)
    (moved : ∀ source replacement origin, write = .relocate source replacement →
      holds origin → holds (relocated source replacement origin))
    (held : ∀ entry ∈ partition.store.values, holds entry) :
    ∀ entry ∈ (partition.effect write).values, holds entry := by
  intro entry listed
  obtain ⟨key, found⟩ := KeyTable.mem_values_iff.mp listed
  cases write with
  | create created =>
    rcases origin_of_put found with rfl | kept
    · exact brought created rfl
    · exact held entry kept
  | update updated =>
    rcases origin_of_put found with rfl | kept
    · exact brought updated rfl
    · exact held entry kept
  | delete dn =>
    rw [effect, KeyTable.get?_erase] at found
    split at found
    · contradiction
    · exact held entry (KeyTable.mem_values_iff.mpr ⟨key, found⟩)
  | relocate source replacement =>
    rcases Store.get?_relocate found with ⟨origin, inside, rfl, _⟩ | ⟨kept, _⟩
    · obtain ⟨originKey, bound, _⟩ := Store.mem_subtree_iff.mp inside
      have stored : origin ∈ partition.store.values := KeyTable.mem_values_iff.mpr ⟨_, bound⟩
      exact moved source replacement origin rfl (held origin stored)
    · exact held entry (KeyTable.mem_values_iff.mpr ⟨key, kept⟩)

/-- What does not look above the leaf of a name survives a move. -/
theorem forall_effect_of_leaf {holds : Entry → Prop}
    (leafOnly : ∀ entry origin : Entry, entry.SameButSuperiors origin → holds origin → holds entry)
    (brought : ∀ entry, write.entry? = some entry → holds entry)
    (held : ∀ entry ∈ partition.store.values, holds entry) :
    ∀ entry ∈ (partition.effect write).values, holds entry := by
  refine forall_effect brought (fun source replacement origin moves originHolds => ?_) held
  rcases relocated_cases source replacement origin with top | below
  · rw [top]
    exact brought replacement (by rw [moves]; rfl)
  · exact leafOnly _ origin below originHolds

end Partition

end Directory
