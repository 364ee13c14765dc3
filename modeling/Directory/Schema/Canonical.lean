import Directory.Entry.Basic
import Directory.Schema.Basic

namespace Directory.Schema

/-! # Canonical names

A schema lets an attribute type be called by several names.  Names and entries are
brought to the primary ones before they are compared or stored. -/

/-- The primary name of an attribute type, or the given one where there is no such
type. -/
def canonicalId (schema : Schema) (id : Text) : Text :=
  ((schema.attributeType? id).map AttributeType.primaryName).getD id

theorem canonicalId_of_type {schema : Schema} {id : Text} {type : AttributeType}
    (known : schema.attributeType? id = some type) : schema.canonicalId id = type.primaryName := by
  rw [canonicalId, known, Option.map_some, Option.getD_some]

theorem canonicalId_of_unknown {schema : Schema} {id : Text}
    (unknown : schema.attributeType? id = none) : schema.canonicalId id = id := by
  rw [canonicalId, unknown, Option.map_none, Option.getD_none]

/-- A step compared under the primary name of its type, which must be known. -/
def normalizeRdn (schema : Schema) (rdn : Rdn) : Except Error Rdn :=
  match schema.attributeType? rdn.attrType with
  | none =>
    .error (.invalidName ("unknown attribute type " ++ Text.quoted rdn.attrType ++ " in name"))
  | some type => .ok (rdn.withCanonicalType type.primaryName)

def normalizeDn (schema : Schema) (dn : Dn) : Except Error Dn := do
  let rdns ← dn.rdns.mapM schema.normalizeRdn
  .ok ⟨rdns⟩

/-- Reads a name and normalizes it. -/
def normalize (schema : Schema) (text : Text) : Except Error Dn := do
  schema.normalizeDn (← Dn.parse text)

/-- The entry with its attributes under their primary names.  Values that were given
under several names come together, in the order of the identifiers. -/
def normalizeEntry (schema : Schema) (entry : Entry) : Entry :=
  entry.attributes.values.foldl
    (fun merged attr => merged.pushValues (schema.canonicalId attr.id) attr.values)
    (Entry.empty entry.dn)

/-- What an entry without attributes has and the merging of an attribute keeps. -/
@[elab_as_elim]
theorem normalizeEntry_induction {schema : Schema} {entry : Entry} {motive : Entry → Prop}
    (start : motive (.empty entry.dn))
    (merge : ∀ merged, motive merged → ∀ attr ∈ entry.attributes.values,
      motive (merged.pushValues (schema.canonicalId attr.id) attr.values)) :
    motive (schema.normalizeEntry entry) :=
  List.foldlRecOn _ _ start merge

theorem dn_normalizeEntry (schema : Schema) (entry : Entry) :
    (schema.normalizeEntry entry).dn = entry.dn :=
  normalizeEntry_induction rfl fun merged kept attr _ =>
    (merged.dn_pushValues (schema.canonicalId attr.id) attr.values).trans kept

end Directory.Schema
