import Directory.Agent.Move
import Directory.Proofs.Entry.Values
import Directory.Proofs.Name.Canonical
import Directory.Proofs.Text.LetterCase

namespace Directory

open Text

/-! # Entries under a new naming step

Renaming adds the new naming value to an entry and, where that is asked, takes out whatever
equals the old one up to ASCII letter case.  All other values stay.  An attribute that has to be
created for the new value gets the compared type of the step as its identifier. -/

namespace Entry

variable {entry : Entry} {id other value : Text} {attr : Attribute}

theorem id_of_get?_pushValue (found : (entry.pushValue id value).get? id = some attr) :
    attr.id = ((entry.get? id).map Attribute.id).getD id := by
  rw [get?_pushValue, if_pos rfl] at found
  cases found
  cases entry.get? id with
  | none => rfl
  | some held =>
    simp only [Option.getD_some, Option.map_some]
    split <;> rfl

theorem id_of_get?_removeValue (found : (entry.removeValue id value).get? other = some attr) :
    ∃ held, entry.get? other = some held ∧ attr.id = held.id := by
  unfold removeValue at found
  cases listed : entry.get? id with
  | none => exact ⟨attr, by simpa only [listed] using found, rfl⟩
  | some held =>
    simp only [listed] at found
    split at found
    · rw [get?_removeAttribute] at found
      split at found
      · contradiction
      · exact ⟨attr, found, rfl⟩
    · rw [get?, KeyTable.get?_insert] at found
      split at found
      · next same =>
        cases found
        exact ⟨held, by rw [get?, ← same, ← get?, listed], rfl⟩
      · exact ⟨attr, found, rfl⟩

theorem exists_get?_of_mem_values {held : Text} (listed : held ∈ entry.values id) :
    ∃ attr, entry.get? id = some attr := by
  cases found : entry.get? id with
  | some attr => exact ⟨attr, rfl⟩
  | none => simp [values, found] at listed

end Entry

namespace Agent

variable {entry : Entry} {target : Dn} {old rdn : Rdn} {deleteOld : Bool} {id held : Text}

theorem mem_values_renamed_iff :
    held ∈ (renamed entry target old (some rdn) deleteOld).values id ↔
      (held ∈ entry.values id ∨ asciiLower rdn.normType = asciiLower id ∧
        entry.containsValue rdn.normType rdn.value = false ∧ held = rdn.value) ∧
      (deleteOld = true → (old == rdn) = false → asciiLower old.normType = asciiLower id →
        sameIgnoringCase held old.value = false) := by
  have moved :
      held ∈ (Entry.pushValue { entry with dn := target } rdn.normType rdn.value).values id ↔
      held ∈ entry.values id ∨ asciiLower rdn.normType = asciiLower id ∧
        entry.containsValue rdn.normType rdn.value = false ∧ held = rdn.value :=
    Entry.mem_values_pushValue_iff
  simp only [renamed]
  split
  · next drops =>
    simp only [Bool.and_eq_true, Bool.not_eq_true'] at drops
    rw [Entry.mem_values_removeValue_iff, moved]
    simp only [drops, true_implies]
  · next keeps =>
    rw [moved]
    refine ⟨fun listed => ⟨listed, fun deletes differ => ?_⟩, And.left⟩
    exact absurd (by rw [deletes, differ]; rfl) keeps

theorem beq_of_sameIgnoringCase (sameType : old.normType = rdn.normType)
    (same : sameIgnoringCase old.value rdn.value = true) : (old == rdn) = true := by
  refine Rdn.beq_iff_key.mpr (Prod.ext sameType ?_)
  show old.normValue = rdn.normValue
  rw [old.normValue_eq, rdn.normValue_eq, foldValue_eq_of_sameIgnoringCase same]

/-- The new naming value survives the removal of the old one. -/
theorem exists_mem_values_renamed (entry : Entry) (target : Dn) (deleteOld : Bool)
    (lowered : asciiLower old.normType = asciiLower rdn.normType → old.normType = rdn.normType) :
    ∃ held ∈ (renamed entry target old (some rdn) deleteOld).values rdn.normType,
      sameIgnoringCase held rdn.value = true := by
  obtain ⟨held, listed, same⟩ := entry.exists_mem_values_pushValue rdn.normType rdn.value
  refine ⟨held, mem_values_renamed_iff.mpr ⟨Entry.mem_values_pushValue_iff.mp listed, ?_⟩, same⟩
  intro _ differ sameType
  rw [← Bool.not_eq_true] at differ ⊢
  intro sameOld
  refine differ (beq_of_sameIgnoringCase (lowered sameType) ?_)
  rw [sameIgnoringCase_iff] at same sameOld ⊢
  exact sameOld.symm.trans same

theorem exists_attribute_renamed (entry : Entry) (target : Dn) (deleteOld : Bool)
    (lowered : asciiLower old.normType = asciiLower rdn.normType → old.normType = rdn.normType) :
    ∃ attr, (renamed entry target old (some rdn) deleteOld).get? rdn.normType = some attr ∧
      attr.id = ((entry.get? rdn.normType).map Attribute.id).getD rdn.normType := by
  obtain ⟨held, listed, _⟩ := exists_mem_values_renamed entry target deleteOld lowered
  obtain ⟨attr, found⟩ := Entry.exists_get?_of_mem_values listed
  refine ⟨attr, found, ?_⟩
  simp only [renamed] at found
  split at found
  · obtain ⟨pushed, isPushed, sameId⟩ := Entry.id_of_get?_removeValue found
    exact sameId.trans (Entry.id_of_get?_pushValue isPushed)
  · exact Entry.id_of_get?_pushValue found

end Agent

end Directory
