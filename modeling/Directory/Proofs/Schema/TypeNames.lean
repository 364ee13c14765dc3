import Directory.Proofs.Schema.ClassClosure
import Directory.Proofs.Text.Characters
import Directory.Schema.Canonical
import Directory.Schema.Core

namespace Directory.Schema

open Text

/-! # Names of attribute types

In a schema that was built a designator belongs to one attribute type.  Names are looked for
without the blanks at their ends, so a type is found under its primary name if none of its names
has any. -/

def HasDistinctTypes (schema : Schema) : Prop :=
  ((schema.attributeTypes.flatMap AttributeType.designators).map asciiLower).Nodup

/-- No name of an attribute type has a blank at an end. -/
def HasTrimmedNames (schema : Schema) : Prop :=
  ∀ type ∈ schema.attributeTypes, ∀ name ∈ type.names, name.trim = name

theorem hasDistinctTypes_of_build {attributeTypes : List AttributeType}
    {objectClasses : List ObjectClass} {schema : Schema}
    (built : build attributeTypes objectClasses = .ok schema) : schema.HasDistinctTypes := by
  simp only [build, bind_eq_ok_iff, refuseAny_eq_ok_iff] at built
  obtain ⟨_, distinct, _, _, _, _, same⟩ := built
  cases same
  exact (repeated?_eq_none_iff.mp distinct).1

theorem core_hasTrimmedNames : core.HasTrimmedNames := by
  show ∀ type ∈ core.attributeTypes, ∀ name ∈ type.names, name.trim = name
  decide +kernel

variable {schema : Schema} {extensions : SchemaExtensions} {type other : AttributeType}
  {id name : Text}

theorem hasTrimmedNames_of_extended (built : core.extended extensions = .ok schema)
    (trimmed : ∀ type ∈ extensions.attributeTypes, ∀ name ∈ type.names, name.trim = name) :
    schema.HasTrimmedNames := by
  intro type listed
  rw [(extended_eq_ok built).1] at listed
  exact (List.mem_append.mp listed).elim (core_hasTrimmedNames type) (trimmed type)

theorem HasDistinctTypes.eq_of_oid (distinct : schema.HasDistinctTypes)
    (member : type ∈ schema.attributeTypes) (otherMember : other ∈ schema.attributeTypes)
    (same : type.oid = other.oid) : type = other := by
  have designated : ∀ type : AttributeType, type.oid ∈ type.designators := fun type => by
    simp [AttributeType.designators]
  exact eq_of_designators distinct member otherMember (designated type) (designated other)
    (congrArg asciiLower same)

theorem HasDistinctTypes.attributeType?_eq_some_iff (distinct : schema.HasDistinctTypes) :
    schema.attributeType? name = some type ↔ type ∈ schema.attributeTypes ∧
      ∃ designator ∈ type.designators, asciiLower designator = lookupKey name :=
  find?_isFiledUnder_eq_some_iff distinct

theorem lookupKey_eq_of_asciiLower {left right : Text} (same : asciiLower left = asciiLower right) :
    lookupKey left = lookupKey right := by
  rw [lookupKey, lookupKey, ← trim_asciiLower, ← trim_asciiLower, same]

theorem attributeType?_primaryName (distinct : schema.HasDistinctTypes)
    (trimmed : schema.HasTrimmedNames) (found : schema.attributeType? name = some type) :
    schema.attributeType? type.primaryName = some type := by
  obtain ⟨listed, designator, designates, key⟩ := distinct.attributeType?_eq_some_iff.mp found
  rw [distinct.attributeType?_eq_some_iff]
  refine ⟨listed, type.primaryName, ?_, ?_⟩
  · rw [AttributeType.primaryName, AttributeType.designators]
    cases type.names <;> simp
  · cases names : type.names with
    | cons first rest =>
      have solid := trimmed type listed first (by simp [names])
      rw [AttributeType.primaryName, names, List.headD_cons, lookupKey, solid]
    | nil =>
      rw [AttributeType.designators, names, List.nil_append, List.mem_singleton] at designates
      rw [AttributeType.primaryName, names, List.headD_nil, ← designates, lookupKey,
        ← trim_asciiLower, key, lookupKey, trim_asciiLower, trim_trim]

/-- A canonical identifier that the schema has a type for is the primary name of that type. -/
theorem asciiLower_eq_of_canonical (distinct : schema.HasDistinctTypes)
    (trimmed : schema.HasTrimmedNames)
    (canonical : asciiLower id = asciiLower (schema.canonicalId name))
    (known : schema.attributeType? id = some type) :
    asciiLower id = asciiLower type.primaryName := by
  have sameKey : schema.attributeType? id = schema.attributeType? (schema.canonicalId name) := by
    rw [attributeType?, attributeType?, lookupKey_eq_of_asciiLower canonical]
  rw [canonical]
  rw [sameKey, canonicalId] at known
  rw [canonicalId]
  cases found : schema.attributeType? name with
  | none =>
    rw [found, Option.map_none, Option.getD_none, found] at known
    contradiction
  | some first =>
    rw [found, Option.map_some, Option.getD_some,
      attributeType?_primaryName distinct trimmed found] at known
    rw [Option.map_some, Option.getD_some, Option.some.inj known]

end Directory.Schema
