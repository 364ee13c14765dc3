import Directory.Entry.Modification

namespace Directory

open Text

/-! # Edited entries

An entry that starts without attributes and is then edited, by single operations and by changes
that may be refused half way, never has an attribute without values. -/

/-- What is done to an entry at a time. -/
inductive Entry.Edit where
  | pushValue (id value : Text)
  | put (id : Text) (values : List Text)
  | removeValue (id value : Text)
  | removeAttribute (id : Text)
  /-- Changes in order.  Those before a refusal stay. -/
  | apply (changes : List Modification)

/-- Every attribute has values. -/
def Entry.IsFilled (entry : Entry) : Prop :=
  ∀ key attr, entry.attributes.get? key = some attr → attr.values ≠ []

namespace Entry

variable {entry : Entry}

def edit (entry : Entry) : Edit → Entry
  | .pushValue id value => entry.pushValue id value
  | .put id values => entry.put id values
  | .removeValue id value => entry.removeValue id value
  | .removeAttribute id => entry.removeAttribute id
  | .apply changes => (entry.apply changes).2

/-- The entry after the edits, one after the other. -/
def edited (entry : Entry) (edits : List Edit) : Entry := edits.foldl edit entry

theorem isFilled_empty (dn : Dn) : (empty dn).IsFilled := nofun

theorem IsFilled.insert (filled : entry.IsFilled) (key : Text) {attr : Attribute}
    (present : attr.values ≠ []) :
    IsFilled { entry with attributes := entry.attributes.insert key attr } :=
  KeyTable.forall_insert filled present

theorem IsFilled.removeAttribute (filled : entry.IsFilled) (id : Text) :
    (entry.removeAttribute id).IsFilled :=
  KeyTable.forall_erase filled (asciiLower id)

theorem IsFilled.pushValue (filled : entry.IsFilled) (id value : Text) :
    (entry.pushValue id value).IsFilled := by
  refine filled.insert _ ?_
  split
  · next contained =>
    rw [Attribute.contains, List.any_eq_true] at contained
    obtain ⟨held, listed, _⟩ := contained
    exact List.ne_nil_of_mem listed
  · exact List.append_ne_nil_of_right_ne_nil _ (List.cons_ne_nil value [])

theorem IsFilled.pushValues (filled : entry.IsFilled) (id : Text) (values : List Text) :
    (entry.pushValues id values).IsFilled := by
  induction values generalizing entry with
  | nil => exact filled
  | cons value rest ih => exact ih (filled.pushValue id value)

theorem IsFilled.put (filled : entry.IsFilled) (id : Text) (values : List Text) :
    (entry.put id values).IsFilled := by
  unfold Entry.put
  split
  · exact filled.removeAttribute id
  · next present => exact filled.insert _ fun absent => present (List.isEmpty_iff.mpr absent)

theorem IsFilled.removeValue (filled : entry.IsFilled) (id value : Text) :
    (entry.removeValue id value).IsFilled := by
  unfold Entry.removeValue
  cases entry.get? id with
  | none => exact filled
  | some attr =>
    simp only
    split
    · exact filled.removeAttribute id
    · next present => exact filled.insert _ fun absent => present (List.isEmpty_iff.mpr absent)

theorem keeps_isFilled (change : Modification) : change.Keeps IsFilled where
  pushValue _ value filled := filled.pushValue change.id value
  removeValue _ value filled := filled.removeValue change.id value
  removeAttribute _ filled := filled.removeAttribute change.id
  put _ _ filled := filled.put change.id change.values

theorem IsFilled.edit (filled : entry.IsFilled) (edit : Edit) : (entry.edit edit).IsFilled := by
  cases edit with
  | pushValue id value => exact filled.pushValue id value
  | put id values => exact filled.put id values
  | removeValue id value => exact filled.removeValue id value
  | removeAttribute id => exact filled.removeAttribute id
  | apply changes => exact apply_induction (fun change _ => keeps_isFilled change) filled

theorem IsFilled.edited (filled : entry.IsFilled) (edits : List Edit) :
    (entry.edited edits).IsFilled :=
  List.foldlRecOn edits Entry.edit filled fun _ held edit _ => held.edit edit

end Entry

end Directory
