import Directory.Entry.Modification
import Directory.Proofs.Text.Characters
import Directory.Schema.Canonical

namespace Directory

open Text

/-! # Identifiers of attributes

An attribute is kept under its identifier in small letters, and keeps the identifier that it was
created with.  So the identifiers of an entry come from those that its changes name, and a
normalized entry has canonical ones. -/

/-- Every attribute is kept under its identifier in small letters, and the identifier is one of
`ids`. -/
def Entry.IdentifiedBy (entry : Entry) (ids : Text → Prop) : Prop :=
  ∀ key attr, entry.attributes.get? key = some attr → key = asciiLower attr.id ∧ ids attr.id

/-- Up to letter case the identifier is the canonical form of one. -/
def Schema.IsCanonicalId (schema : Schema) (id : Text) : Prop :=
  ∃ name, asciiLower id = asciiLower (schema.canonicalId name)

namespace Entry

variable {entry after : Entry} {ids : Text → Prop} {id : Text}

theorem identifiedBy_empty (dn : Dn) (ids : Text → Prop) : (empty dn).IdentifiedBy ids := nofun

theorem IdentifiedBy.insert (identified : entry.IdentifiedBy ids) {key : Text} {attr : Attribute}
    (keyed : key = asciiLower attr.id) (isId : ids attr.id) :
    IdentifiedBy { entry with attributes := entry.attributes.insert key attr } ids :=
  KeyTable.forall_insert identified ⟨keyed, isId⟩

theorem IdentifiedBy.removeAttribute (identified : entry.IdentifiedBy ids) (id : Text) :
    (entry.removeAttribute id).IdentifiedBy ids :=
  KeyTable.forall_erase identified (asciiLower id)

theorem IdentifiedBy.pushValue (identified : entry.IdentifiedBy ids) (isId : ids id)
    (value : Text) : (entry.pushValue id value).IdentifiedBy ids := by
  have grown : asciiLower id = asciiLower ((entry.get? id).getD ⟨id, []⟩).id ∧
      ids ((entry.get? id).getD ⟨id, []⟩).id := by
    cases held : entry.get? id with
    | none => exact ⟨rfl, isId⟩
    | some attr => exact identified _ attr held
  refine identified.insert ?_ ?_ <;> split
  · exact grown.1
  · exact grown.1
  · exact grown.2
  · exact grown.2

theorem IdentifiedBy.pushValues (identified : entry.IdentifiedBy ids) (isId : ids id)
    (values : List Text) : (entry.pushValues id values).IdentifiedBy ids := by
  induction values generalizing entry with
  | nil => exact identified
  | cons value rest ih => exact ih (identified.pushValue isId value)

theorem IdentifiedBy.put (identified : entry.IdentifiedBy ids) (isId : ids id)
    (values : List Text) : (entry.put id values).IdentifiedBy ids := by
  unfold Entry.put
  split
  · exact identified.removeAttribute id
  · exact identified.insert rfl isId

theorem IdentifiedBy.removeValue (identified : entry.IdentifiedBy ids) (id value : Text) :
    (entry.removeValue id value).IdentifiedBy ids := by
  unfold Entry.removeValue
  cases held : entry.get? id with
  | none => exact identified
  | some attr =>
    obtain ⟨keyed, isId⟩ := identified _ attr held
    simp only
    split
    · exact identified.removeAttribute id
    · exact identified.insert keyed isId

theorem keeps_identifiedBy {change : Modification} (isId : ids change.id) :
    change.Keeps fun entry => entry.IdentifiedBy ids where
  pushValue _ value identified := identified.pushValue isId value
  removeValue _ value identified := identified.removeValue change.id value
  removeAttribute _ identified := identified.removeAttribute change.id
  put _ _ identified := identified.put isId change.values

theorem IdentifiedBy.modified (identified : entry.IdentifiedBy ids) {changes : List Modification}
    (areIds : ∀ change ∈ changes, ids change.id) (changed : entry.modified changes = .ok after) :
    after.IdentifiedBy ids :=
  modified_induction (fun change listed => keeps_identifiedBy (areIds change listed)) identified
    changed

end Entry

namespace Schema

variable (schema : Schema)

theorem isCanonicalId_canonicalId (name : Text) : schema.IsCanonicalId (schema.canonicalId name) :=
  ⟨name, rfl⟩

theorem identifiedBy_normalizeEntry {entry : Entry} {ids : Text → Prop}
    (canonical : ∀ attr ∈ entry.attributes.values, ids (schema.canonicalId attr.id)) :
    (schema.normalizeEntry entry).IdentifiedBy ids :=
  normalizeEntry_induction (Entry.identifiedBy_empty entry.dn ids)
    fun _ identified attr listed => identified.pushValues (canonical attr listed) attr.values

variable {schema}

theorem isCanonicalId_of_normalizeRdn {given rdn : Rdn}
    (normalized : schema.normalizeRdn given = .ok rdn) : schema.IsCanonicalId rdn.normType := by
  simp only [normalizeRdn] at normalized
  split at normalized
  · contradiction
  · next type known =>
    cases normalized
    refine ⟨given.attrType, ?_⟩
    rw [canonicalId_of_type known]
    exact asciiLower_asciiLower type.primaryName

end Schema

end Directory
