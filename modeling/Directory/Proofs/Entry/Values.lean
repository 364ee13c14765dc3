import Directory.Entry.Modification
import Directory.Refusal

namespace Directory.Entry

open Text

/-! # Values after single changes

What an entry holds for an identifier after a value was added or taken out, and for which values
a modification of one value is refused. -/

variable {entry : Entry} {id other value held : Text}

theorem values_congr (entry : Entry) (same : asciiLower id = asciiLower other) :
    entry.values id = entry.values other := by
  rw [values, get?, same, values, get?]

theorem containsValue_eq (entry : Entry) (id value : Text) : entry.containsValue id value =
    (entry.values id).any fun held => sameIgnoringCase held value := by
  rw [containsValue, values]
  cases entry.get? id <;> rfl

theorem values_pushValue (entry : Entry) (id value other : Text) :
    (entry.pushValue id value).values other =
      if asciiLower id = asciiLower other then
        if entry.containsValue id value then entry.values id else entry.values id ++ [value]
      else entry.values other := by
  rw [values, get?_pushValue, containsValue_eq]
  by_cases same : asciiLower id = asciiLower other
  · rw [if_pos same, if_pos same, values]
    cases entry.get? id with
    | none => rfl
    | some attr =>
      simp only [Option.getD_some, Option.map_some, Attribute.contains]
      exact apply_ite Attribute.values ..
  · rw [if_neg same, if_neg same, values]

theorem values_removeAttribute (entry : Entry) (id other : Text) :
    (entry.removeAttribute id).values other =
      if asciiLower id = asciiLower other then [] else entry.values other := by
  rw [values, get?_removeAttribute]
  split <;> rfl

theorem values_put (entry : Entry) (id other : Text) (values : List Text) :
    (entry.put id values).values other =
      if asciiLower id = asciiLower other then values else entry.values other := by
  rw [Entry.values, get?_put]
  split
  · cases values <;> rfl
  · rfl

theorem values_removeValue (entry : Entry) (id value other : Text) :
    (entry.removeValue id value).values other =
      if asciiLower id = asciiLower other then
        (entry.values id).filter fun held => !sameIgnoringCase held value
      else entry.values other := by
  by_cases same : asciiLower id = asciiLower other
  · rw [if_pos same, values, values, removeValue]
    cases found : entry.get? id with
    | none => rw [get?, ← same, ← get?, found]; rfl
    | some attr =>
      simp only [Option.map_some, Option.getD_some]
      split
      · next emptied =>
        rw [get?_removeAttribute, if_pos same, List.isEmpty_iff.mp emptied]
        rfl
      · rw [get?, KeyTable.get?_insert, if_pos same]
        rfl
  · rw [if_neg same, removeValue]
    cases entry.get? id with
    | none => rfl
    | some attr =>
      simp only
      split
      · rw [values_removeAttribute, if_neg same]
      · rw [values, get?, KeyTable.get?_insert, if_neg same, ← get?, values]

theorem mem_values_pushValue_iff : held ∈ (entry.pushValue id value).values other ↔
    held ∈ entry.values other ∨
      asciiLower id = asciiLower other ∧ entry.containsValue id value = false ∧ held = value := by
  rw [values_pushValue]
  by_cases same : asciiLower id = asciiLower other
  · rw [if_pos same, values_congr entry same]
    cases contained : entry.containsValue id value <;> simp [same]
  · simp [same]

theorem exists_mem_values_pushValue (entry : Entry) (id value : Text) :
    ∃ held ∈ (entry.pushValue id value).values id, sameIgnoringCase held value = true := by
  cases contained : entry.containsValue id value with
  | true =>
    rw [containsValue_eq, List.any_eq_true] at contained
    obtain ⟨held, listed, same⟩ := contained
    exact ⟨held, mem_values_pushValue_iff.mpr (.inl listed), same⟩
  | false =>
    exact ⟨value, mem_values_pushValue_iff.mpr (.inr ⟨rfl, contained, rfl⟩),
      sameIgnoringCase_refl value⟩

theorem mem_values_removeValue_iff : held ∈ (entry.removeValue id value).values other ↔
    held ∈ entry.values other ∧
      (asciiLower id = asciiLower other → sameIgnoringCase held value = false) := by
  rw [values_removeValue]
  by_cases same : asciiLower id = asciiLower other
  · rw [if_pos same, values_congr entry same, List.mem_filter]
    simp [same]
  · simp [same]

end Directory.Entry
