import Directory.Proofs.Agent.Renames
import Directory.Proofs.Schema.Equality
import Directory.Proofs.Schema.StoredTypes

namespace Directory

open Text

/-! # Merged values

A schema brings together what an entry gives for a type under several names.  Of values that are
the same up to the case of ASCII letters the first stays, in the order of the identifiers. -/

theorem flatMap_filter_congr {α β : Type} {made : α → List β} {left right : α → Bool}
    {members : List α} (agree : ∀ member ∈ members, made member ≠ [] → left member = right member) :
    (members.filter left).flatMap made = (members.filter right).flatMap made := by
  induction members with
  | nil => rfl
  | cons first rest ih =>
    obtain ⟨here, later⟩ := List.forall_mem_cons.mp agree
    rw [List.filter_cons, List.filter_cons]
    by_cases nothing : made first = []
    · cases left first <;> cases right first <;> simp [nothing, ih later]
    · rw [here nothing]
      cases right first <;> simp [ih later]

/-- Whatever is dropped is the same as something that stays. -/
theorem Text.exists_mem_eraseDupsBy {value : Text} :
    ∀ values : List Text, value ∈ values →
      ∃ kept ∈ values.eraseDupsBy sameIgnoringCase, sameIgnoringCase kept value = true
  | [], listed => absurd listed List.not_mem_nil
  | first :: rest, listed => by
    rw [List.eraseDupsBy_cons]
    cases same : sameIgnoringCase value first with
    | true => exact ⟨first, List.mem_cons_self, sameIgnoringCase_comm first value ▸ same⟩
    | false =>
      have later : value ∈ rest := by
        refine (List.mem_cons.mp listed).resolve_left ?_
        rintro rfl
        rw [sameIgnoringCase_refl] at same
        contradiction
      obtain ⟨kept, isKept, alike⟩ := exists_mem_eraseDupsBy
        (rest.filter fun other => decide (sameIgnoringCase other first = false))
        (List.mem_filter.mpr ⟨later, by simpa using same⟩)
      exact ⟨kept, List.mem_cons_of_mem _ isKept, alike⟩
termination_by values => values.length
decreasing_by exact Nat.lt_succ_of_le (List.length_filter_le _ rest)

theorem Text.eraseDupsBy_subset :
    ∀ values : List Text, values.eraseDupsBy sameIgnoringCase ⊆ values
  | [] => List.Subset.refl []
  | first :: rest => by
    rw [List.eraseDupsBy_cons]
    have later := eraseDupsBy_subset
      (rest.filter fun other => decide (sameIgnoringCase other first = false))
    exact List.cons_subset_cons _ (List.Subset.trans later (List.filter_subset_self rest))
termination_by values => values.length
decreasing_by exact Nat.lt_succ_of_le (List.length_filter_le _ rest)

namespace MatchingRule

variable {rule : MatchingRule} {held value : Text} {values : List Text}

/-- After values were dropped that differ from an earlier one in letter case only, a value is found
if the rule reads it and, where letter case counts, something that stayed has its letters. -/
theorem exists_equates_kept_iff (listed : value ∈ values) :
    (∃ kept ∈ values.eraseDupsBy sameIgnoringCase, rule.equates kept value = true) ↔
      rule.equates value value = true ∧ (rule = .caseExact →
        ∃ kept ∈ values.eraseDupsBy sameIgnoringCase, kept.foldBlanks = value.foldBlanks) := by
  constructor
  · rintro ⟨kept, isKept, same⟩
    refine ⟨equates_self_of_equates same, fun exactly => ⟨kept, isKept, ?_⟩⟩
    rwa [exactly, equates, beq_iff_eq] at same
  · rintro ⟨reads, cased⟩
    by_cases exactly : rule = .caseExact
    · obtain ⟨kept, isKept, same⟩ := cased exactly
      exact ⟨kept, isKept, by rw [exactly, equates, same, beq_self_eq_true]⟩
    · obtain ⟨kept, isKept, same⟩ := exists_mem_eraseDupsBy values listed
      exact ⟨kept, isKept, (equates_of_sameIgnoringCase exactly same).trans reads⟩

end MatchingRule

namespace Entry

/-- What an entry holds after values were added to it under several identifiers. -/
theorem values_foldl_pushValue (pairs : List (Text × Text)) (entry : Entry) (id : Text) :
    (pairs.foldl (fun merged pair => merged.pushValue pair.1 pair.2) entry).values id =
      entry.values id ++
        (((pairs.filter fun pair => asciiLower pair.1 == asciiLower id).map Prod.snd).filter
          fun value => !entry.containsValue id value).eraseDupsBy sameIgnoringCase := by
  simp only [containsValue_eq]
  induction pairs generalizing entry with
  | nil => simp
  | cons pair rest ih =>
    rw [List.foldl_cons, ih, values_pushValue, List.filter_cons]
    by_cases same : asciiLower pair.1 = asciiLower id
    · rw [if_pos same, containsValue_eq, values_congr entry same,
        if_pos (beq_iff_eq.mpr same), List.map_cons, List.filter_cons]
      cases contained : (entry.values id).any fun held => sameIgnoringCase held pair.2 with
      | true => simp
      | false =>
        simp only [Bool.false_eq_true, if_false, Bool.not_false, if_true]
        rw [List.eraseDupsBy_cons, List.filter_filter, List.append_assoc, List.singleton_append]
        refine congrArg
          (fun later => entry.values id ++ pair.2 :: later.eraseDupsBy sameIgnoringCase)
          (List.filter_congr fun value _ => ?_)
        rw [List.any_append, List.any_cons, List.any_nil, Bool.or_false, Bool.not_or,
          Bool.and_comm, sameIgnoringCase_comm pair.2]
        cases sameIgnoringCase value pair.2 <;> rfl
    · rw [if_neg same, if_neg (by simpa using same)]

end Entry

namespace Schema

variable {schema : Schema} {entry stored : Entry} {type : AttributeType} {value : Text}

/-- What an entry gives for a type, under whichever of its names. -/
def valuesGiven (schema : Schema) (entry : Entry) (type : AttributeType) : List Text :=
  (entry.attributes.filter fun _ attr => schema.attributeType? attr.id = some type).values.flatMap
    Attribute.values

theorem mem_valuesGiven_iff : value ∈ schema.valuesGiven entry type ↔
    ∃ attr ∈ entry.attributes.values, schema.attributeType? attr.id = some type ∧
      value ∈ attr.values := by
  simp only [valuesGiven, List.mem_flatMap, KeyTable.values, KeyTable.filter, List.mem_map,
    List.mem_filter, decide_eq_true_eq]
  grind

theorem normalizeEntry_eq (schema : Schema) (entry : Entry) : schema.normalizeEntry entry =
    (entry.attributes.values.flatMap fun attr =>
      attr.values.map fun value => (schema.canonicalId attr.id, value)).foldl
        (fun merged pair => merged.pushValue pair.1 pair.2) (.empty entry.dn) := by
  simp only [normalizeEntry, List.foldl_flatMap, List.foldl_map]
  rfl

theorem values_normalizeEntry (schema : Schema) (entry : Entry) (id : Text) :
    (schema.normalizeEntry entry).values id =
      ((entry.attributes.values.filter fun attr =>
        asciiLower (schema.canonicalId attr.id) == asciiLower id).flatMap
          Attribute.values).eraseDupsBy sameIgnoringCase := by
  have nothing : (Entry.empty entry.dn).values id = [] := rfl
  have gathered (attrs : List Attribute) :
      ((attrs.flatMap fun attr => attr.values.map fun value =>
        (schema.canonicalId attr.id, value)).filter fun pair =>
          asciiLower pair.1 == asciiLower id).map Prod.snd =
        (attrs.filter fun attr =>
          asciiLower (schema.canonicalId attr.id) == asciiLower id).flatMap Attribute.values := by
    induction attrs with
    | nil => rfl
    | cons attr rest ih =>
      rw [List.flatMap_cons, List.filter_append, List.map_append, ih, List.filter_map, List.map_map,
        List.filter_cons]
      cases same : asciiLower (schema.canonicalId attr.id) == asciiLower id <;>
        simp [Function.comp_def, same]
  rw [normalizeEntry_eq, Entry.values_foldl_pushValue, gathered]
  simp [Entry.containsValue_eq, nothing]

section Accepted

variable (canonical : stored.attributes = (schema.normalizeEntry entry).attributes)
  (accepted : schema.validate stored = .ok ())
include canonical accepted

theorem exists_type_of_accepted {attr : Attribute} (listed : attr ∈ entry.attributes.values)
    (present : attr.values ≠ []) : ∃ type, schema.attributeType? attr.id = some type := by
  cases unknown : schema.attributeType? attr.id with
  | some type => exact ⟨type, rfl⟩
  | none =>
    have own : schema.canonicalId attr.id = attr.id := canonicalId_of_unknown unknown
    obtain ⟨value, listedValue⟩ := List.exists_mem_of_ne_nil _ present
    obtain ⟨kept, isKept, _⟩ := exists_mem_eraseDupsBy
      ((entry.attributes.values.filter fun other =>
        asciiLower (schema.canonicalId other.id) == asciiLower attr.id).flatMap Attribute.values)
      (List.mem_flatMap.mpr ⟨attr, List.mem_filter.mpr ⟨listed, by simp [own]⟩, listedValue⟩)
    rw [← values_normalizeEntry] at isKept
    obtain ⟨held, found⟩ := Entry.exists_get?_of_mem_values isKept
    obtain ⟨keyed, _⟩ := schema.identifiedBy_normalizeEntry
      (fun attr _ => schema.isCanonicalId_canonicalId attr.id) _ held found
    rw [Entry.get?, ← canonical] at found
    obtain ⟨type, known⟩ := (types_of_validate accepted).known _ held found
    rw [attributeType?, ← lookupKey_eq_of_asciiLower keyed, ← attributeType?, unknown] at known
    contradiction

/-- What an accepted entry holds for a type is what was given for it, each value once. -/
theorem valuesOf_eq_eraseDupsBy (distinct : schema.HasDistinctTypes)
    (member : type ∈ schema.attributeTypes) :
    valuesOf type stored = (schema.valuesGiven entry type).eraseDupsBy sameIgnoringCase := by
  have identified : stored.IdentifiedBy schema.IsCanonicalId := by
    rw [Entry.IdentifiedBy, canonical]
    exact schema.identifiedBy_normalizeEntry fun attr _ => schema.isCanonicalId_canonicalId attr.id
  have sameValues : stored.values type.primaryName =
      (schema.normalizeEntry entry).values type.primaryName := by
    rw [Entry.values, Entry.get?, canonical, ← Entry.get?, ← Entry.values]
  have underKey : (entry.attributes.values.filter fun attr =>
      asciiLower (schema.canonicalId attr.id) == asciiLower type.primaryName).flatMap
        Attribute.values = schema.valuesGiven entry type := by
    have filtered : schema.valuesGiven entry type = (entry.attributes.values.filter fun attr =>
        schema.attributeType? attr.id = some type).flatMap Attribute.values :=
      congrArg (List.flatMap Attribute.values) (KeyTable.values_filter fun _ _ _ => rfl)
    rw [filtered]
    refine flatMap_filter_congr fun attr listed present => ?_
    obtain ⟨known, ofAttr⟩ := exists_type_of_accepted canonical accepted listed present
    rw [canonicalId_of_type ofAttr, ofAttr, Bool.eq_iff_iff, beq_iff_eq, decide_eq_true_eq,
      Option.some.injEq,
      distinct.asciiLower_primaryName_iff (mem_attributeTypes ofAttr) member]
  rw [valuesOf_eq distinct (types_of_validate accepted) identified member, sameValues,
    values_normalizeEntry, underKey]

end Accepted

end Schema

end Directory
