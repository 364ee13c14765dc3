import Directory.Proofs.Entry.Edits
import Directory.Proofs.Entry.Values
import Directory.Proofs.Entry.ValueSets

namespace Directory.Entry

open Text

/-! # Taking back what was added

Values that are new come to stand behind those that are there, one after the other.  Taking them
away again, from the first to the last, leaves what was there before, and an attribute that came
with them goes with the last of them. -/

/-- No value is the same as one of those held, or as an earlier one, up to ASCII letter case. -/
structure AreNew (held values : List Text) : Prop where
  fresh : ∀ value ∈ values, ∀ other ∈ held, sameIgnoringCase other value = false
  apart : AreApart values

variable {entry grown : Entry} {id value : Text} {held rest values : List Text} {attr : Attribute}

theorem areNew_cons_iff : AreNew held (value :: rest) ↔
    (∀ other ∈ held, sameIgnoringCase other value = false) ∧ AreNew (held ++ [value]) rest := by
  constructor
  · rintro ⟨fresh, apart⟩
    obtain ⟨first, later⟩ := List.pairwise_cons.mp apart
    obtain ⟨freshFirst, freshLater⟩ := List.forall_mem_cons.mp fresh
    refine ⟨freshFirst, fun added isAdded other listed => ?_, later⟩
    rcases List.mem_append.mp listed with listed | listed
    · exact freshLater added isAdded other listed
    · rw [List.mem_singleton.mp listed]
      exact first added isAdded
  · rintro ⟨freshFirst, fresh, apart⟩
    refine ⟨List.forall_mem_cons.mpr ⟨freshFirst, fun added isAdded other listed => ?_⟩,
      List.pairwise_cons.mpr ⟨fun added isAdded => ?_, apart⟩⟩
    · exact fresh added isAdded other (List.mem_append_left _ listed)
    · exact fresh added isAdded value (List.mem_append_right _ List.mem_cons_self)

theorem AreNew.filter_eq (new : AreNew held (value :: rest)) :
    ((held ++ value :: rest).filter fun other => !sameIgnoringCase other value) = held ++ rest := by
  obtain ⟨first, _⟩ := List.pairwise_cons.mp new.apart
  have others : ∀ other ∈ held ++ rest, (!sameIgnoringCase other value) = true := by
    intro other listed
    rw [Bool.not_eq_true']
    rcases List.mem_append.mp listed with listed | listed
    · exact new.fresh value List.mem_cons_self other listed
    · rw [sameIgnoringCase_comm]
      exact first other listed
  rw [List.filter_append, List.filter_cons_of_neg (by simp [sameIgnoringCase_refl]),
    ← List.filter_append, List.filter_eq_self.mpr others]

/-- The attribute that an added value joins, one without values where the entry has none. -/
def slot (entry : Entry) (id : Text) : Attribute := (entry.get? id).getD ⟨id, []⟩

/-- The entry with the attribute in the place of its own, which goes if there are no values. -/
def hold (entry : Entry) (id : Text) (attr : Attribute) : Entry :=
  if attr.values.isEmpty then entry.removeAttribute id
  else { entry with attributes := entry.attributes.insert (asciiLower id) attr }

theorem eq_of_lookups {left right : Entry} (names : left.dn = right.dn)
    (same : ∀ key, left.attributes.get? key = right.attributes.get? key) : left = right := by
  obtain ⟨dn, attributes⟩ := left
  obtain ⟨_, others⟩ := right
  cases names
  exact congrArg (Entry.mk dn) (KeyTable.ext_get? same)

theorem dn_hold (entry : Entry) (id : Text) (attr : Attribute) :
    (entry.hold id attr).dn = entry.dn := by
  unfold hold
  split <;> rfl

theorem lookup_hold (entry : Entry) (id : Text) (attr : Attribute) (key : Text) :
    (entry.hold id attr).attributes.get? key =
      if asciiLower id = key then (if attr.values.isEmpty then none else some attr)
      else entry.attributes.get? key := by
  by_cases absent : attr.values.isEmpty
  · rw [hold, if_pos absent, if_pos absent, removeAttribute, KeyTable.get?_erase]
  · rw [hold, if_neg absent, if_neg absent, KeyTable.get?_insert]

theorem hold_hold (entry : Entry) (id : Text) (first second : Attribute) :
    (entry.hold id first).hold id second = entry.hold id second := by
  refine eq_of_lookups (by simp only [dn_hold]) fun key => ?_
  rw [lookup_hold, lookup_hold, lookup_hold]
  split <;> rfl

theorem get?_hold (present : attr.values ≠ []) : (entry.hold id attr).get? id = some attr := by
  rw [get?, lookup_hold, if_pos rfl, if_neg (mt List.isEmpty_iff.mp present)]

theorem values_hold (entry : Entry) (id : Text) (attr : Attribute) :
    (entry.hold id attr).values id = attr.values := by
  rw [values, get?, lookup_hold, if_pos rfl]
  split
  · next absent => exact (List.isEmpty_iff.mp absent).symm
  · rfl

theorem slot_hold (present : attr.values ≠ []) : (entry.hold id attr).slot id = attr := by
  rw [slot, get?_hold present, Option.getD_some]

theorem values_slot (entry : Entry) (id : Text) : (entry.slot id).values = entry.values id := by
  rw [slot, values]
  cases entry.get? id <;> rfl

/-- An entry has what it holds in its place, unless that is an attribute without values. -/
theorem hold_slot_iff : entry.hold id (entry.slot id) = entry ↔
    ∀ attr, entry.get? id = some attr → attr.values ≠ [] := by
  constructor
  · intro same attr found absent
    have lost := lookup_hold entry id (entry.slot id) (asciiLower id)
    rw [same, ← get?, slot, found, Option.getD_some, if_pos rfl, absent] at lost
    contradiction
  · intro filled
    refine eq_of_lookups (dn_hold ..) fun key => ?_
    rw [lookup_hold]
    split
    · next same =>
      rw [← same, ← get?, slot]
      cases found : entry.get? id with
      | none => rfl
      | some attr => exact if_neg (mt List.isEmpty_iff.mp (filled attr found))
    · rfl

theorem pushValue_eq_hold (absent : entry.containsValue id value = false) :
    entry.pushValue id value =
      entry.hold id { entry.slot id with values := entry.values id ++ [value] } := by
  have lacks : (entry.slot id).contains value = false := by
    rw [Attribute.contains, values_slot, ← containsValue_eq, absent]
  have grows : entry.pushValue id value = { entry with
      attributes := entry.attributes.insert (asciiLower id)
        (if (entry.slot id).contains value then entry.slot id
          else { entry.slot id with values := (entry.slot id).values ++ [value] }) } := rfl
  rw [grows, lacks, if_neg Bool.false_ne_true, values_slot, hold, if_neg (by simp)]

theorem addValues_eq_ok_iff : addValues id values entry = (.ok (), grown) ↔
    AreNew (entry.values id) values ∧ entry.pushValues id values = grown := by
  induction values generalizing entry with
  | nil =>
    have none : AreNew (entry.values id) [] := ⟨nofun, .nil⟩
    simp [addValues, pushValues, none]
  | cons value rest ih =>
    rw [addValues, areNew_cons_iff]
    cases contained : entry.containsValue id value with
    | true =>
      rw [containsValue_eq, List.any_eq_true] at contained
      obtain ⟨other, listed, same⟩ := contained
      refine iff_of_false (by simp) fun added => ?_
      obtain ⟨⟨fresh, _⟩, _⟩ := added
      rw [fresh other listed] at same
      contradiction
    | false =>
      have grows : (entry.pushValue id value).values id = entry.values id ++ [value] := by
        rw [values_pushValue, if_pos rfl, contained, if_neg Bool.false_ne_true]
      rw [containsValue_eq, List.any_eq_false] at contained
      rw [if_neg Bool.false_ne_true, ih, grows, and_iff_right fun other listed => by
        simpa using contained other listed]
      rfl

theorem pushValues_eq_hold (new : AreNew (entry.values id) values) (present : values ≠ []) :
    entry.pushValues id values =
      entry.hold id { entry.slot id with values := entry.values id ++ values } := by
  induction values generalizing entry with
  | nil => contradiction
  | cons value rest ih =>
    obtain ⟨fresh, later⟩ := areNew_cons_iff.mp new
    have absent : entry.containsValue id value = false := by
      rw [containsValue_eq, List.any_eq_false]
      simpa using fresh
    let first : Attribute := { entry.slot id with values := entry.values id ++ [value] }
    have pushed : entry.pushValue id value = entry.hold id first := pushValue_eq_hold absent
    cases rest with
    | nil => exact pushed
    | cons next others =>
      have joins : (entry.hold id first).slot id = first := slot_hold (by simp [first])
      calc entry.pushValues id (value :: next :: others)
          = (entry.hold id first).pushValues id (next :: others) := by rw [← pushed]; rfl
        _ = (entry.hold id first).hold id { first with values := first.values ++ next :: others } := by
          rw [ih (by rwa [values_hold]) (List.cons_ne_nil next others), joins, values_hold]
        _ = entry.hold id { entry.slot id with
              values := entry.values id ++ value :: next :: others } := by
          rw [hold_hold, List.append_assoc, List.singleton_append]

theorem removeValue_hold (present : attr.values ≠ []) :
    (entry.hold id attr).removeValue id value =
      entry.hold id { attr with
        values := attr.values.filter fun other => !sameIgnoringCase other value } := by
  let left := attr.values.filter fun other => !sameIgnoringCase other value
  calc (entry.hold id attr).removeValue id value
      = (entry.hold id attr).hold id { attr with values := left } := by
        rw [removeValue, get?_hold present]
        rfl
    _ = entry.hold id { attr with values := left } := hold_hold ..

theorem removeValues_hold (spelled : Text) (new : AreNew held values) :
    removeValues id values (entry.hold id ⟨spelled, held ++ values⟩) =
      (.ok (), entry.hold id ⟨spelled, held⟩) := by
  induction values with
  | nil => rw [List.append_nil]; rfl
  | cons value rest ih =>
    have contained :
        (entry.hold id ⟨spelled, held ++ value :: rest⟩).containsValue id value = true := by
      rw [containsValue_eq, values_hold, List.any_eq_true]
      exact ⟨value, by simp, sameIgnoringCase_refl value⟩
    have later : AreNew held rest :=
      ⟨(List.forall_mem_cons.mp new.fresh).2, (List.pairwise_cons.mp new.apart).2⟩
    rw [removeValues, if_pos contained, removeValue_hold (by simp), new.filter_eq, ih later]

/-- Taking back what was added gives the entry again, unless it had the attribute without values,
which no edited entry has. -/
theorem removeValues_added_iff (present : values ≠ [])
    (added : addValues id values entry = (.ok (), grown)) :
    removeValues id values grown = (.ok (), entry) ↔
      ∀ attr, entry.get? id = some attr → attr.values ≠ [] := by
  obtain ⟨new, rfl⟩ := addValues_eq_ok_iff.mp added
  rw [pushValues_eq_hold new present, removeValues_hold _ new, Prod.mk.injEq, and_iff_right rfl,
    ← values_slot]
  exact hold_slot_iff

theorem apply_add (entry : Entry) (id : Text) (values : List Text) :
    entry.apply [⟨.add, id, values⟩] = addValues id values entry := by
  rw [apply, applyOne]
  rcases addValues id values entry with ⟨_ | _, changed⟩ <;> rfl

theorem apply_remove (entry : Entry) (id : Text) (present : values ≠ []) :
    entry.apply [⟨.remove, id, values⟩] = removeValues id values entry := by
  rw [apply, applyOne]
  simp only [if_neg (mt List.isEmpty_iff.mp present)]
  rcases removeValues id values entry with ⟨_ | _, changed⟩ <;> rfl

/-- Whatever edits an entry went through, values that can be added to it can be taken away again,
and that gives the entry as it was. -/
theorem additions_undone (dn : Dn) (edits : List Edit) (present : values ≠ [])
    (added : (((empty dn).edited edits).apply [⟨.add, id, values⟩]).1 = .ok ()) :
    (((empty dn).edited edits).apply [⟨.add, id, values⟩]).2.apply [⟨.remove, id, values⟩] =
      (.ok (), (empty dn).edited edits) := by
  have filled := (isFilled_empty dn).edited edits
  rw [apply_add] at added ⊢
  rw [apply_remove _ _ present]
  exact (removeValues_added_iff present (Prod.ext added rfl)).mpr fun attr found =>
    filled _ attr found

/-- The attribute is spelled otherwise, and one of its values comes from changes that were refused
half way. -/
theorem additions_undone_after_refusal :
    ∃ entry grown : Entry,
      (empty ⟨[]⟩).edited [.put "sn" ["Bay", "BAY"], .pushValue "CN" "Ann",
        .apply [⟨.add, "cn", ["Bob", "ANN", "Cid"]⟩]] = entry ∧
      entry.attributes = (.ofList
        [("cn", ⟨"CN", ["Ann", "Bob"]⟩), ("sn", ⟨"sn", ["Bay", "BAY"]⟩)] : KeyTable Attribute) ∧
      entry.apply [⟨.add, "Cn", ["Dan", "Cid"]⟩] = (.ok (), grown) ∧
      grown.attributes = (.ofList [("cn", ⟨"CN", ["Ann", "Bob", "Dan", "Cid"]⟩),
        ("sn", ⟨"sn", ["Bay", "BAY"]⟩)] : KeyTable Attribute) ∧
      grown.apply [⟨.remove, "Cn", ["Dan", "Cid"]⟩] = (.ok (), entry) :=
  ⟨_, _, rfl, by decide, by rfl, by decide, additions_undone _ _ (by decide) (by rfl)⟩

end Directory.Entry
