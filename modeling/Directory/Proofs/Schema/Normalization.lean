import Directory.Proofs.Entry.Edits
import Directory.Proofs.Entry.ValueSets
import Directory.Proofs.Schema.MergedValues

namespace Directory

open Text

/-! # Normalized entries

A normalized entry has each attribute under one identifier, the one by which the schema calls it,
with values that differ.  An entry of that kind is its own normal form. -/

theorem AreApart.eraseDupsBy_eq {values : List Text} (apart : AreApart values) :
    values.eraseDupsBy sameIgnoringCase = values := by
  induction values with
  | nil => rfl
  | cons first rest ih =>
    obtain ⟨others, later⟩ := List.pairwise_cons.mp apart
    have kept : (rest.filter fun other => decide (sameIgnoringCase other first = false)) = rest :=
      List.filter_eq_self.mpr fun other listed => by
        rw [sameIgnoringCase_comm, others other listed, decide_eq_true rfl]
    rw [List.eraseDupsBy_cons, kept, ih later]

namespace Entry

/-- Entries have the same attributes if they have the same values under the same identifiers. -/
theorem attributes_eq_of_values {left right : Entry}
    (sameValues : ∀ id, left.values id = right.values id)
    (identified : left.IdentifiedBy fun id => ∃ attr, right.get? id = some attr ∧ attr.id = id)
    (keyed : ∀ key attr, right.attributes.get? key = some attr → key = asciiLower attr.id)
    (filled : right.IsFilled) : left.attributes = right.attributes := by
  refine KeyTable.ext_get? fun key => ?_
  cases found : left.attributes.get? key with
  | some attr =>
    obtain ⟨isKey, other, otherFound, sameId⟩ := identified key attr found
    have both := sameValues attr.id
    rw [values_of_get? otherFound, values_of_get? (by rw [get?, ← isKey, found])] at both
    have same : other = attr := by
      cases other
      cases attr
      cases sameId
      cases both
      rfl
    rw [get?, ← isKey, same] at otherFound
    exact otherFound.symm
  | none =>
    cases otherFound : right.attributes.get? key with
    | none => rfl
    | some attr =>
      have isKey := keyed key attr otherFound
      have nothing := sameValues attr.id
      rw [values, get?, ← isKey, found, values_of_get? (by rw [get?, ← isKey, otherFound])]
        at nothing
      exact absurd nothing.symm (filled key attr otherFound)

end Entry

namespace Schema

variable {schema : Schema} {entry : Entry} {type : AttributeType} {id value : Text}

/-- The entry calls its attributes by canonical identifiers, has them under these in small letters,
and every attribute has values, which are apart. -/
structure IsNormal (schema : Schema) (entry : Entry) : Prop where
  identified : entry.IdentifiedBy fun id => schema.canonicalId id = id
  filled : entry.IsFilled
  apart : ∀ key, entry.ApartAt key

theorem canonicalId_canonicalId (distinct : schema.HasDistinctTypes)
    (trimmed : schema.HasTrimmedNames) (id : Text) :
    schema.canonicalId (schema.canonicalId id) = schema.canonicalId id := by
  cases known : schema.attributeType? id with
  | none => rw [canonicalId_of_unknown known, canonicalId_of_unknown known]
  | some type =>
    rw [canonicalId_of_type known,
      canonicalId_of_type (attributeType?_primaryName distinct trimmed known)]

theorem isFilled_normalizeEntry (schema : Schema) (entry : Entry) :
    (schema.normalizeEntry entry).IsFilled :=
  normalizeEntry_induction (Entry.isFilled_empty entry.dn)
    fun _ filled attr _ => filled.pushValues (schema.canonicalId attr.id) attr.values

theorem isNormal_normalizeEntry (distinct : schema.HasDistinctTypes)
    (trimmed : schema.HasTrimmedNames) (entry : Entry) :
    schema.IsNormal (schema.normalizeEntry entry) where
  identified := schema.identifiedBy_normalizeEntry
    fun attr _ => canonicalId_canonicalId distinct trimmed attr.id
  filled := schema.isFilled_normalizeEntry entry
  apart := schema.apartAt_normalizeEntry entry

namespace IsNormal

variable {key other : Text} {attr otherAttr : Attribute}

theorem key_eq (normal : schema.IsNormal entry)
    (found : entry.attributes.get? key = some attr)
    (otherFound : entry.attributes.get? other = some otherAttr)
    (known : schema.attributeType? attr.id = some type)
    (otherKnown : schema.attributeType? otherAttr.id = some type) : other = key := by
  obtain ⟨keyed, canonical⟩ := normal.identified key attr found
  obtain ⟨otherKeyed, otherCanonical⟩ := normal.identified other otherAttr otherFound
  rw [canonicalId_of_type known] at canonical
  rw [canonicalId_of_type otherKnown] at otherCanonical
  rw [keyed, otherKeyed, ← canonical, ← otherCanonical]

theorem values_normalizeEntry (normal : schema.IsNormal entry) (id : Text) :
    (schema.normalizeEntry entry).values id = entry.values id := by
  have underKey : (entry.attributes.values.filter fun attr =>
      asciiLower (schema.canonicalId attr.id) == asciiLower id) = (entry.get? id).toList := by
    rw [Entry.get?, ← KeyTable.values_filter_key]
    refine (KeyTable.values_filter fun key attr found => ?_).symm
    obtain ⟨keyed, canonical⟩ := normal.identified key attr found
    rw [canonical, keyed]
  rw [Schema.values_normalizeEntry, underKey]
  cases found : entry.get? id with
  | none => rw [Entry.values, found]; rfl
  | some attr =>
    rw [Option.toList_some, List.flatMap_singleton, (normal.apart _ attr found).eraseDupsBy_eq,
      Entry.values_of_get? found]

/-- What is normal stays as it is, the spelling of unknown identifiers included. -/
theorem normalizeEntry_eq (normal : schema.IsNormal entry) :
    schema.normalizeEntry entry = entry := by
  have identified : (schema.normalizeEntry entry).IdentifiedBy fun id =>
      ∃ attr, entry.get? id = some attr ∧ attr.id = id :=
    schema.identifiedBy_normalizeEntry fun attr listed => by
      obtain ⟨key, found⟩ := KeyTable.mem_values_iff.mp listed
      obtain ⟨keyed, canonical⟩ := normal.identified key attr found
      rw [canonical]
      exact ⟨attr, by rw [Entry.get?, ← keyed, found], rfl⟩
  have attributes := Entry.attributes_eq_of_values normal.values_normalizeEntry identified
    (fun key attr found => (normal.identified key attr found).1) normal.filled
  calc schema.normalizeEntry entry
      = ⟨(schema.normalizeEntry entry).dn, (schema.normalizeEntry entry).attributes⟩ := rfl
    _ = ⟨entry.dn, entry.attributes⟩ := by rw [schema.dn_normalizeEntry entry, attributes]

end IsNormal

/-- What is held under an identifier was given under one that has its canonical form, and nothing
that was given is lost. -/
theorem containsValue_normalizeEntry_iff :
    (schema.normalizeEntry entry).containsValue id value = true ↔
      ∃ attr ∈ entry.attributes.values,
        asciiLower (schema.canonicalId attr.id) = asciiLower id ∧ attr.contains value = true := by
  simp only [Entry.containsValue_eq, values_normalizeEntry, List.any_eq_true, Attribute.contains]
  constructor
  · rintro ⟨held, kept, same⟩
    obtain ⟨attr, listed, given⟩ := List.mem_flatMap.mp (eraseDupsBy_subset _ kept)
    obtain ⟨isAttr, named⟩ := List.mem_filter.mp listed
    exact ⟨attr, isAttr, beq_iff_eq.mp named, held, given, same⟩
  · rintro ⟨attr, isAttr, named, given, isGiven, same⟩
    have listed : attr ∈ entry.attributes.values.filter fun attr =>
        asciiLower (schema.canonicalId attr.id) == asciiLower id :=
      List.mem_filter.mpr ⟨isAttr, beq_iff_eq.mpr named⟩
    obtain ⟨held, kept, alike⟩ :=
      exists_mem_eraseDupsBy _ (List.mem_flatMap.mpr ⟨attr, listed, isGiven⟩)
    rw [sameIgnoringCase_iff] at same alike
    exact ⟨held, kept, sameIgnoringCase_iff.mpr (alike.trans same)⟩

variable {attributeTypes : List AttributeType} {objectClasses : List ObjectClass}

/-- Normalizing twice does no more than normalizing once.  Each attribute of what comes out is kept
under its identifier in small letters, is the only one of its type and has values, no two of them
the same up to letter case; it contains what was given under any identifier with its canonical
form. -/
theorem normalizeEntry_idempotent (built : build attributeTypes objectClasses = .ok schema)
    (trimmed : schema.HasTrimmedNames) (entry : Entry) :
    schema.normalizeEntry (schema.normalizeEntry entry) = schema.normalizeEntry entry ∧
      (∀ key attr, (schema.normalizeEntry entry).attributes.get? key = some attr →
        key = asciiLower attr.id ∧ attr.values ≠ [] ∧ AreApart attr.values ∧
          ∀ other otherAttr type,
            (schema.normalizeEntry entry).attributes.get? other = some otherAttr →
              schema.attributeType? attr.id = some type →
                schema.attributeType? otherAttr.id = some type → other = key) ∧
      (∀ id value, (schema.normalizeEntry entry).containsValue id value = true ↔
        ∃ attr ∈ entry.attributes.values,
          asciiLower (schema.canonicalId attr.id) = asciiLower id ∧
            attr.contains value = true) ∧
      (schema.normalizeEntry entry).dn = entry.dn := by
  have normal := isNormal_normalizeEntry (hasDistinctTypes_of_build built) trimmed entry
  refine ⟨normal.normalizeEntry_eq, fun key attr found => ?_,
    fun id value => containsValue_normalizeEntry_iff, schema.dn_normalizeEntry entry⟩
  exact ⟨(normal.identified key attr found).1, normal.filled key attr found,
    normal.apart key attr found,
    fun other otherAttr type otherFound known otherKnown =>
      normal.key_eq found otherFound known otherKnown⟩

/-- A name, an object identifier and two spellings of an identifier that nobody knows, under keys
which are none of these, and an attribute without values. -/
theorem normalizeEntry_idempotent_of_aliases :
    ∃ entry : Entry, entry.attributes = (.ofList
        [("b", ⟨"2.5.4.3", ["a", "B"]⟩), ("e", ⟨"sn", []⟩), ("x", ⟨"Foo", ["v"]⟩),
          ("y", ⟨"foo", ["V", "w"]⟩), ("z", ⟨"commonName", ["A", "c"]⟩)] : KeyTable Attribute) ∧
      (core.normalizeEntry entry).attributes = (.ofList
        [("cn", ⟨"cn", ["a", "B", "c"]⟩), ("foo", ⟨"Foo", ["v", "w"]⟩)] : KeyTable Attribute) ∧
      core.normalizeEntry (core.normalizeEntry entry) = core.normalizeEntry entry := by
  have built : build core.attributeTypes core.objectClasses = .ok core := by decide +kernel
  exact ⟨⟨⟨[]⟩, _⟩, rfl, by decide +kernel,
    (normalizeEntry_idempotent built core_hasTrimmedNames _).1⟩

end Schema

end Directory
