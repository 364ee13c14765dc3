import Directory.Proofs.Entry.Identifiers
import Directory.Proofs.Schema.Checks
import Directory.Proofs.Schema.DelegationClass
import Directory.Proofs.Schema.TypeNames

namespace Directory

open Text

/-! # What classes require

An accepted entry has an attribute with values for each that one of its classes requires.  The
class of delegations requires `ref`, and where identifiers are canonical, what meets the
requirement is found under that very name. -/

/-- An attribute of an entry with values, and its type. -/
structure Schema.HoldsValues (schema : Schema) (entry : Entry) (type : AttributeType) (key : Text)
    (attr : Attribute) : Prop where
  stored : entry.attributes.get? key = some attr
  known : schema.attributeType? attr.id = some type
  nonempty : attr.values ≠ []

namespace Schema

def delegationAttribute : AttributeType :=
  { oid := "2.16.840.1.113730.3.1.34", names := [Entry.refAttribute],
    syntaxOid := ValueSyntax.ia5String.oid, equality := .caseExact }

variable {schema : Schema} {extensions : SchemaExtensions} {entry : Entry} {cls : ObjectClass}
  {classes : List ObjectClass} {asked : Requirements} {name oid : Text}

theorem exists_required (accepted : schema.validate entry = .ok ())
    (resolved : schema.resolveClasses entry.objectClasses = .ok classes) (member : cls ∈ classes)
    (required : name ∈ cls.must) :
    ∃ type key attr, schema.attributeOid name = .ok type.oid ∧
      schema.HoldsValues entry type key attr := by
  obtain ⟨_, _, again, _, asked, asks, present, checked, complete, _⟩ :=
    validate_eq_ok_iff_steps.mp accepted
  cases resolved.symm.trans again
  obtain ⟨oid, ofName⟩ := exists_attributeOid_iff.mpr
    ((exists_requirements_iff.mp ⟨asked, asks⟩).1 cls member name (List.mem_append_left _ required))
  have met : oid ∈ present :=
    complete oid ((asksFor_requirements asks).must oid |>.mpr ⟨cls, member, name, required, ofName⟩)
  obtain ⟨attr, listed, ofAttr⟩ :=
    ((mem_checkAttributes_iff checked).mp met).resolve_left List.not_mem_nil
  obtain ⟨type, known, _, admitted, _⟩ :=
    (exists_checkAttributes_iff.mp ⟨present, checked⟩).1 attr listed
  obtain ⟨other, again, rfl⟩ := attributeOid_eq_ok_iff.mp ofAttr
  cases known.symm.trans again
  obtain ⟨key, stored⟩ := KeyTable.mem_values_iff.mp listed
  exact ⟨type, key, attr, ofName, stored, known, admitted.present⟩

theorem delegationAttribute_mem (built : core.extended extensions = .ok schema) :
    delegationAttribute ∈ schema.attributeTypes := by
  rw [(extended_eq_ok built).1]
  exact List.mem_append_left _ (by decide +kernel)

theorem attributeOid_ref (built : core.extended extensions = .ok schema) :
    schema.attributeOid Entry.refAttribute = .ok delegationAttribute.oid := by
  have distinct : schema.HasDistinctTypes := hasDistinctTypes_of_build built
  have found : schema.attributeType? Entry.refAttribute = some delegationAttribute :=
    distinct.attributeType?_eq_some_iff.mpr ⟨delegationAttribute_mem built, Entry.refAttribute,
      List.mem_append_left _ List.mem_cons_self, by decide +kernel⟩
  rw [attributeOid, found]

/-- An accepted entry that is a delegation and has canonical identifiers holds URLs. -/
theorem refs_ne_nil (built : core.extended extensions = .ok schema)
    (trimmed : schema.HasTrimmedNames) (accepted : schema.validate entry = .ok ())
    (identified : entry.IdentifiedBy schema.IsCanonicalId) (referral : entry.isReferral = true) :
    entry.values Entry.refAttribute ≠ [] := by
  have distinct : schema.HasDistinctTypes := hasDistinctTypes_of_build built
  obtain ⟨classes, resolved⟩ := resolveClasses_of_validate accepted
  have member : delegationClass ∈ classes :=
    (mem_resolveClasses_iff (hasDistinctClasses_of_build built) resolved).mpr
      ((hasClass_delegationClass_iff built).mpr (.inl referral))
  obtain ⟨type, key, attr, ofName, holds⟩ :=
    exists_required accepted resolved member (List.mem_singleton.mpr rfl)
  have sameOid := Except.ok.inj ((attributeOid_ref built).symm.trans ofName)
  obtain rfl := distinct.eq_of_oid (delegationAttribute_mem built)
    (mem_attributeTypes holds.known) sameOid
  obtain ⟨keyed, name, canonical⟩ := identified key attr holds.stored
  have isRef : key = asciiLower Entry.refAttribute :=
    keyed.trans (asciiLower_eq_of_canonical distinct trimmed canonical holds.known)
  rw [Entry.values, Entry.get?, ← isRef, holds.stored]
  exact holds.nonempty

end Schema

end Directory
