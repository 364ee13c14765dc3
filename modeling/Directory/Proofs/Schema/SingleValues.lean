import Directory.Proofs.Schema.MergedValues

namespace Directory

open Text

/-! # Single values

For a type that allows one value an accepted entry has one at most, and has it under one identifier
only. -/

namespace Schema

/-- The entry has the value for the named type and nothing else, under whichever identifiers. -/
def HoldsOnly (schema : Schema) (entry : Entry) (name value : Text) : Prop :=
  ∃ type, schema.attributeType? name = some type ∧ schema.valuesGiven entry type = [value] ∧
    valuesOf type entry = [value]

/-- The name is the primary one of a type that allows one value. -/
structure NamesSingle (schema : Schema) (name : Text) (type : AttributeType) : Prop where
  known : schema.attributeType? name = some type
  primary : type.primaryName = name
  single : type.singleValue = true

variable {schema : Schema} {entry : Entry} {type : AttributeType} {name value : Text}
  {extensions : SchemaExtensions} {attr : Attribute}

theorem attributeType?_of_extended (built : core.extended extensions = .ok schema)
    (known : core.attributeType? name = some type) : schema.attributeType? name = some type := by
  rw [attributeType?, (extended_eq_ok built).1, List.find?_append, ← attributeType?, known]
  rfl

theorem admitsValues_of_validate (accepted : schema.validate entry = .ok ())
    (listed : attr ∈ entry.attributes.values) (known : schema.attributeType? attr.id = some type) :
    AdmitsValues ValueSyntax.checker? type attr.values := by
  obtain ⟨_, _, _, _, _, _, present, checked, _⟩ := validate_eq_ok_iff_steps.mp accepted
  obtain ⟨found, ofAttr, _, admitted, _⟩ :=
    (exists_checkAttributes_iff.mp ⟨present, checked⟩).1 attr listed
  cases ofAttr.symm.trans known
  exact admitted

/-- What an accepted entry has for a type that allows one value is all that it has for the type. -/
theorem NamesSingle.holdsOnly (named : schema.NamesSingle name type)
    (distinct : schema.HasDistinctTypes) (accepted : schema.validate entry = .ok ())
    (identified : entry.IdentifiedBy schema.IsCanonicalId) (held : value ∈ valuesOf type entry) :
    schema.HoldsOnly entry name value ∧
      ∀ accepts, ValueSyntax.checker? type.syntaxOid = some accepts → accepts value = true := by
  have types := types_of_validate accepted
  have values := valuesOf_eq distinct types identified (mem_attributeTypes named.known)
  rw [values, named.primary] at held
  obtain ⟨attr, found⟩ := Entry.exists_get?_of_mem_values held
  have ofAttr : schema.attributeType? attr.id = some type := by
    rw [attributeType?, ← lookupKey_eq_of_asciiLower (identified _ attr found).1, ← attributeType?,
      named.known]
  have underName : entry.values name = attr.values := Entry.values_of_get? found
  have admitted := admitsValues_of_validate accepted
    (KeyTable.mem_values_iff.mpr ⟨_, found⟩) ofAttr
  rw [underName] at held
  have only : attr.values = [value] := by
    obtain ⟨first, isFirst⟩ := List.length_eq_one_iff.mp
      (Nat.le_antisymm (admitted.single named.single) (List.length_pos_of_mem held))
    rw [isFirst, List.mem_singleton] at held
    rw [isFirst, held]
  refine ⟨⟨type, named.known, ?_, ?_⟩, fun accepts checks => admitted.checked accepts checks _ held⟩
  · rw [valuesGiven, KeyTable.values_filter_eq_singleton found (decide_eq_true ofAttr),
      List.flatMap_singleton, only]
    intro other otherAttr otherFound sameType
    exact types.apart otherFound found (of_decide_eq_true sameType) ofAttr
  · rw [values, named.primary, underName, only]

end Schema

end Directory
