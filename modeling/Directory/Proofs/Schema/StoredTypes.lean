import Directory.Proofs.Entry.Identifiers
import Directory.Proofs.Schema.Checks
import Directory.Proofs.Schema.TypeNames

namespace Directory.Schema

open Text

/-! # Types of stored attributes

Every attribute of an accepted entry has a type, which no other attribute of the entry has.  Where
identifiers are canonical, all that an entry holds for a type is under its primary name. -/

/-- Attributes of the entry have known types, each a type of its own. -/
structure Types (schema : Schema) (entry : Entry) : Prop where
  known : ∀ key attr, entry.attributes.get? key = some attr →
    ∃ type, schema.attributeType? attr.id = some type
  apart : ∀ {key other : Text} {attr otherAttr : Attribute} {type : AttributeType},
    entry.attributes.get? key = some attr → entry.attributes.get? other = some otherAttr →
      schema.attributeType? attr.id = some type →
        schema.attributeType? otherAttr.id = some type → key = other

variable {schema : Schema} {entry : Entry} {type other : AttributeType} {name : Text}

def HaveOtherTypes (schema : Schema) (left right : Attribute) : Prop :=
  ∀ type, schema.attributeType? left.id = some type → schema.attributeType? right.id ≠ some type

theorem HaveOtherTypes.symm {left right : Attribute} (others : schema.HaveOtherTypes left right) :
    schema.HaveOtherTypes right left :=
  fun type rightKnown leftKnown => others type leftKnown rightKnown

theorem HaveOtherOids.haveOtherTypes {left right : Attribute}
    (others : schema.HaveOtherOids left right) : schema.HaveOtherTypes left right :=
  fun type leftKnown rightKnown => others type type leftKnown rightKnown rfl

theorem types_of_validate (accepted : schema.validate entry = .ok ()) : schema.Types entry := by
  obtain ⟨_, _, _, _, _, _, present, checked, _⟩ := validate_eq_ok_iff_steps.mp accepted
  obtain ⟨types, others⟩ := exists_checkAttributes_iff.mp ⟨present, checked⟩
  have apart := others.imp HaveOtherOids.haveOtherTypes
  constructor
  case known =>
    intro key attr found
    obtain ⟨type, known, _⟩ := types attr (KeyTable.mem_values_iff.mpr ⟨key, found⟩)
    exact ⟨type, known⟩
  case apart =>
    intro key other attr otherAttr type found otherFound known otherKnown
    by_contra different
    have symmetric : Std.Symm fun left right : Text × Attribute =>
        schema.HaveOtherTypes left.2 right.2 := ⟨fun _ _ => HaveOtherTypes.symm⟩
    have others := (List.pairwise_map.mp apart).forall (KeyTable.get?_eq_some_iff.mp found)
      (KeyTable.get?_eq_some_iff.mp otherFound) fun same => different (congrArg Prod.fst same)
    exact others type known otherKnown

theorem designators_eq (type : AttributeType) :
    type.designators = type.primaryName :: type.designators.tail := by
  obtain ⟨oid, names⟩ := type
  cases names <;> rfl

theorem primaryName_mem (type : AttributeType) : type.primaryName ∈ type.designators := by
  rw [designators_eq]
  exact List.mem_cons_self

theorem HasDistinctTypes.asciiLower_primaryName_iff (distinct : schema.HasDistinctTypes)
    (member : type ∈ schema.attributeTypes) (otherMember : other ∈ schema.attributeTypes) :
    asciiLower type.primaryName = asciiLower other.primaryName ↔ type = other :=
  ⟨eq_of_designators distinct member otherMember (primaryName_mem type) (primaryName_mem other),
    fun same => same ▸ rfl⟩

/-- Under a canonical identifier that designates a known type is the primary name alone. -/
theorem asciiLower_eq_primaryName (distinct : schema.HasDistinctTypes) {id designator : Text}
    {known : AttributeType} (canonical : schema.IsCanonicalId id)
    (found : schema.attributeType? id = some known) (member : type ∈ schema.attributeTypes)
    (designates : designator ∈ type.designators) (same : asciiLower designator = asciiLower id) :
    asciiLower designator = asciiLower type.primaryName := by
  obtain ⟨name, spelled⟩ := canonical
  cases named : schema.attributeType? name with
  | none =>
    rw [canonicalId_of_unknown named] at spelled
    rw [attributeType?, lookupKey_eq_of_asciiLower spelled, ← attributeType?, named] at found
    contradiction
  | some other =>
    rw [canonicalId_of_type named] at spelled
    have reached := same.trans spelled
    rw [eq_of_designators distinct member (mem_attributeTypes named) designates
      (primaryName_mem other) reached]
    exact reached

theorem valuesOf_eq (distinct : schema.HasDistinctTypes) (types : schema.Types entry)
    (identified : entry.IdentifiedBy schema.IsCanonicalId) (member : type ∈ schema.attributeTypes) :
    valuesOf type entry = entry.values type.primaryName := by
  have apart : (type.designators.map asciiLower).Nodup := by
    rw [HasDistinctTypes, List.map_flatMap] at distinct
    exact (List.nodup_flatMap.mp distinct).1 type member
  have nothing : ∀ designator ∈ type.designators.tail, entry.values designator = [] := by
    intro designator listed
    cases found : entry.get? designator with
    | none => rw [Entry.values, found, Option.map_none, Option.getD_none]
    | some attr =>
      obtain ⟨keyed, canonical⟩ := identified _ attr found
      obtain ⟨known, ofAttr⟩ := types.known _ attr found
      have primary := asciiLower_eq_primaryName distinct canonical ofAttr member
        (List.mem_of_mem_tail listed) keyed
      rw [designators_eq, List.map_cons, List.nodup_cons] at apart
      exact absurd (primary ▸ List.mem_map_of_mem listed) apart.1
  rw [valuesOf, designators_eq, List.flatMap_cons, List.flatMap_eq_nil_iff.mpr nothing,
    List.append_nil]

end Directory.Schema
