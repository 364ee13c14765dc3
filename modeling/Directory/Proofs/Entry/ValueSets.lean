import Directory.Entry.Modification
import Directory.Schema.Canonical

namespace Directory

open Text

/-! # Values that differ

Whatever adds or removes single values keeps the values of an attribute apart from each other, up
to ASCII letter case.  Only a replacement takes its values as they are given, and so a value that
it lists twice is stored twice. -/

/-- No two of the values are the same up to ASCII letter case. -/
def AreApart (values : List Text) : Prop :=
  values.Pairwise fun left right => sameIgnoringCase left right = false

instance (values : List Text) : Decidable (AreApart values) :=
  inferInstanceAs (Decidable (List.Pairwise _ _))

namespace Entry

/-- The values under a key are apart, if there are any. -/
def ApartAt (entry : Entry) (key : Text) : Prop :=
  ∀ attr, entry.attributes.get? key = some attr → AreApart attr.values

variable {entry : Entry} {key id value : Text} {values : List Text}

theorem apartAt_empty (dn : Dn) (key : Text) : (empty dn).ApartAt key := nofun

theorem areApart_append {attr : Attribute} (apart : AreApart attr.values)
    (fresh : attr.contains value = false) : AreApart (attr.values ++ [value]) := by
  refine List.pairwise_append.mpr ⟨apart, List.pairwise_singleton _ _, ?_⟩
  intro held listed added isAdded
  rw [List.mem_singleton.mp isAdded]
  simp only [Attribute.contains, List.any_eq_false, Bool.not_eq_true] at fresh
  exact fresh held listed

theorem ApartAt.pushValue (apart : entry.ApartAt key) (id value : Text) :
    (entry.pushValue id value).ApartAt key := by
  intro attr found
  simp only [Entry.pushValue, KeyTable.get?_insert] at found
  split at found
  · next same =>
    have before : AreApart ((entry.get? id).getD ⟨id, []⟩).values := by
      cases held : entry.get? id with
      | none => exact .nil
      | some attr => exact apart attr (same ▸ held)
    cases found
    split
    · exact before
    · next fresh => exact areApart_append before (Bool.not_eq_true _ ▸ fresh)
  · exact apart attr found

theorem ApartAt.pushValues (apart : entry.ApartAt key) (id : Text) (values : List Text) :
    (entry.pushValues id values).ApartAt key := by
  induction values generalizing entry with
  | nil => exact apart
  | cons value rest ih => exact ih (apart.pushValue id value)

theorem ApartAt.removeAttribute (apart : entry.ApartAt key) (id : Text) :
    (entry.removeAttribute id).ApartAt key := by
  intro attr found
  simp only [Entry.removeAttribute, KeyTable.get?_erase] at found
  split at found
  · contradiction
  · exact apart attr found

theorem ApartAt.put (apart : entry.ApartAt key)
    (given : asciiLower id = key → AreApart values) : (entry.put id values).ApartAt key := by
  by_cases absent : values.isEmpty
  · rw [Entry.put, if_pos absent]
    exact apart.removeAttribute id
  · intro attr found
    rw [Entry.put, if_neg absent, KeyTable.get?_insert] at found
    split at found
    · next same =>
      cases found
      exact given same
    · exact apart attr found

theorem ApartAt.removeValue (apart : entry.ApartAt key) (id value : Text) :
    (entry.removeValue id value).ApartAt key := by
  unfold Entry.removeValue
  cases held : entry.get? id with
  | none => exact apart
  | some attr =>
    simp only
    split
    · exact apart.removeAttribute id
    · intro kept found
      rw [KeyTable.get?_insert] at found
      split at found
      · next same =>
        cases found
        exact (apart attr (same ▸ held)).filter _
      · exact apart kept found

theorem keeps_apartAt {change : Modification}
    (given : change.kind = .replace → asciiLower change.id = key → AreApart change.values) :
    change.Keeps fun entry => entry.ApartAt key where
  pushValue _ value apart := apart.pushValue change.id value
  removeValue _ value apart := apart.removeValue change.id value
  removeAttribute _ apart := apart.removeAttribute change.id
  put replaces _ apart := apart.put (given replaces)

theorem ApartAt.modified {changes : List Modification} {after : Entry} (apart : entry.ApartAt key)
    (given : ∀ change ∈ changes, change.kind = .replace → asciiLower change.id = key →
      AreApart change.values) (changed : entry.modified changes = .ok after) :
    after.ApartAt key :=
  modified_induction (fun change listed => keeps_apartAt (given change listed)) apart changed

/-- One change keeps all values apart exactly if it is no replacement or its values are apart. -/
theorem applyOne_apart_iff (apart : ∀ key, entry.ApartAt key) {change : Modification} :
    (∀ key, (entry.applyOne change).2.ApartAt key) ↔
      (change.kind = .replace → AreApart change.values) := by
  constructor
  · intro after replaces
    by_cases absent : change.values.isEmpty
    · rw [List.isEmpty_iff.mp absent]
      exact .nil
    · have stored : (entry.applyOne change).2.attributes.get? (asciiLower change.id) =
          some ⟨change.id, change.values⟩ := by
        simp [Entry.applyOne, replaces, Entry.put, absent, KeyTable.get?_insert]
      exact after _ _ stored
  · intro given key
    exact applyOne_induction (keeps_apartAt fun replaces _ => given replaces) (apart key)

end Entry

theorem Schema.apartAt_normalizeEntry (schema : Schema) (entry : Entry) (key : Text) :
    (schema.normalizeEntry entry).ApartAt key :=
  normalizeEntry_induction (Entry.apartAt_empty entry.dn key)
    fun _ apart attr _ => apart.pushValues (schema.canonicalId attr.id) attr.values

end Directory
