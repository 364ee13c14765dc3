import Directory.Proofs.Schema.Checks
import Directory.Proofs.Schema.DelegationClass
import Directory.Proofs.Schema.TypeNames

namespace Directory

open Text

/-! # Which entries are accepted

What an entry has to be is said here without the order in which it is checked: by its classes and
what they inherit from, its attributes and their types, and its name.  The checks accept exactly
the entries that are so, whatever checks the values of a syntax. -/

namespace Schema

variable {schema : Schema} {entry : Entry} {attr : Attribute} {type : AttributeType} {dn : Dn}
  {classes : List ObjectClass} {asked : Requirements} {present oids : List Text} {name oid : Text}
  {checker? : Text → Option (Text → Bool)}

/-- Why an entry may have an attribute of a type. -/
inductive Permits (schema : Schema) (entry : Entry) (type : AttributeType) : Prop where
  | operational (isOperational : type.isOperational = true)
  | objectClass (known : schema.attributeType? Entry.objectClass = some type)
  | listed {cls : ObjectClass} {name : Text} (has : schema.HasClass entry cls)
      (among : name ∈ cls.must ++ cls.may) (known : schema.attributeType? name = some type)
  | extensible {cls : ObjectClass} {name : Text} (has : schema.HasClass entry cls)
      (named : name ∈ cls.names) (spelled : sameIgnoringCase name extensibleClass = true)

/-- What makes an entry fit a schema. -/
structure Conforms (schema : Schema) (checker? : Text → Option (Text → Bool)) (entry : Entry) :
    Prop where
  classed : entry.objectClasses ≠ []
  classesKnown : ∀ declared ∈ entry.objectClasses, ∃ cls, schema.objectClass? declared = some cls
  superiorsKnown : ∀ cls, schema.HasClass entry cls → ∀ superior ∈ cls.superiors,
    ∃ above, schema.objectClass? superior = some above
  structural : ∃ cls, schema.HasClass entry cls ∧ cls.kind = .structural
  listedKnown : ∀ cls, schema.HasClass entry cls → ∀ name ∈ cls.must ++ cls.may,
    ∃ type, schema.attributeType? name = some type
  objectClassKnown : ∃ type, schema.attributeType? Entry.objectClass = some type
  attributes : ∀ attr ∈ entry.attributes.values, ∃ type,
    schema.attributeType? attr.id = some type ∧ AdmitsValues checker? type attr.values ∧
      schema.Permits entry type
  apart : entry.attributes.values.Pairwise schema.HaveOtherOids
  complete : ∀ cls, schema.HasClass entry cls → ∀ name ∈ cls.must, ∀ type,
    schema.attributeType? name = some type →
      ∃ attr ∈ entry.attributes.values, schema.attributeType? attr.id = some type
  named : ∀ rdn, entry.dn.rdn? = some rdn → ∃ type,
    schema.attributeType? rdn.attrType = some type ∧ ∃ designator ∈ type.designators,
      ∃ value ∈ entry.values designator, type.equality.equates value rdn.value = true
  usable : (∃ declared ∈ entry.objectClasses,
      sameIgnoringCase declared Entry.referralClass = true) →
    ∀ value ∈ entry.values Entry.refAttribute, (DelegationTarget.ofRef value).isOk = true

theorem permits_iff (distinct : schema.HasDistinctTypes)
    (member : ∀ cls, cls ∈ classes ↔ schema.HasClass entry cls)
    (asks : schema.AsksFor classes asked) (listed : type ∈ schema.attributeTypes) :
    asked.permits type = true ↔ schema.Permits entry type := by
  have sameType (name : Text) : schema.attributeOid name = .ok type.oid ↔
      schema.attributeType? name = some type := by
    rw [attributeOid_eq_ok_iff]
    constructor
    · rintro ⟨other, known, same⟩
      rwa [← distinct.eq_of_oid (mem_attributeTypes known) listed same]
    · exact fun known => ⟨type, known, rfl⟩
  simp only [Requirements.permits, Bool.or_eq_true, List.contains_iff_mem, asks.must, asks.may,
    asks.extensible, sameType, member]
  constructor
  · rintro (((operational | ⟨cls, has, name, named, spelled⟩) | ⟨cls, has, name, among, known⟩) |
      (known | ⟨cls, has, name, among, known⟩))
    · exact .operational operational
    · exact .extensible has named spelled
    · exact .listed has (List.mem_append_left _ among) known
    · exact .objectClass known
    · exact .listed has (List.mem_append_right _ among) known
  · intro permits
    cases permits with
    | operational isOperational => exact .inl (.inl (.inl isOperational))
    | objectClass known => exact .inr (.inl known)
    | listed has among known =>
      rcases List.mem_append.mp among with must | may
      · exact .inl (.inr ⟨_, has, _, must, known⟩)
      · exact .inr (.inr ⟨_, has, _, may, known⟩)
    | extensible has named spelled => exact .inl (.inl (.inr ⟨_, has, _, named, spelled⟩))

theorem unusableRef?_eq_none_iff : unusableRef? entry = none ↔
    ((∃ declared ∈ entry.objectClasses, sameIgnoringCase declared Entry.referralClass = true) →
      ∀ value ∈ entry.values Entry.refAttribute,
        (DelegationTarget.ofRef value).isOk = true) := by
  rw [← isReferral_iff, unusableRef?]
  cases entry.isReferral <;> simp

theorem exists_resolveClasses_iff_known (distinct : schema.HasDistinctClasses) :
    (∃ classes, schema.resolveClasses entry.objectClasses = .ok classes) ↔
      (∀ declared ∈ entry.objectClasses, ∃ cls, schema.objectClass? declared = some cls) ∧
      ∀ cls, schema.HasClass entry cls → ∀ superior ∈ cls.superiors,
        ∃ above, schema.objectClass? superior = some above := by
  rw [exists_resolveClasses_iff distinct]
  constructor
  · intro throughout
    refine ⟨fun declared listed => (throughout declared listed).known, ?_⟩
    rintro cls ⟨declared, listed, inherits⟩
    exact (throughout declared listed).superiorsKnown cls inherits
  · rintro ⟨known, superiors⟩ declared listed
    exact ⟨known declared listed, fun cls inherits => superiors cls ⟨declared, listed, inherits⟩⟩

theorem complete_iff (distinct : schema.HasDistinctTypes)
    (member : ∀ cls, cls ∈ classes ↔ schema.HasClass entry cls)
    (asks : schema.AsksFor classes asked)
    (checked : schema.checkAttributes dn asked entry.attributes.values [] checker? =
      .ok present) :
    (∀ oid ∈ asked.must, oid ∈ present) ↔
      ∀ cls, schema.HasClass entry cls → ∀ name ∈ cls.must, ∀ type,
        schema.attributeType? name = some type →
          ∃ attr ∈ entry.attributes.values, schema.attributeType? attr.id = some type := by
  simp only [asks.must, member, mem_checkAttributes_iff checked, List.not_mem_nil, false_or]
  constructor
  · intro complete cls has name among type known
    obtain ⟨attr, listed, ofAttr⟩ := complete type.oid
      ⟨cls, has, name, among, attributeOid_eq_ok_iff.mpr ⟨type, known, rfl⟩⟩
    obtain ⟨other, otherKnown, same⟩ := attributeOid_eq_ok_iff.mp ofAttr
    rw [distinct.eq_of_oid (mem_attributeTypes otherKnown) (mem_attributeTypes known) same]
      at otherKnown
    exact ⟨attr, listed, otherKnown⟩
  · rintro complete _ ⟨cls, has, name, among, ofName⟩
    obtain ⟨type, known, rfl⟩ := attributeOid_eq_ok_iff.mp ofName
    obtain ⟨attr, listed, ofAttr⟩ := complete cls has name among type known
    exact ⟨attr, listed, attributeOid_eq_ok_iff.mpr ⟨type, ofAttr, rfl⟩⟩

variable {attributeTypes : List AttributeType} {objectClasses : List ObjectClass}

theorem conforms_of_validate (built : build attributeTypes objectClasses = .ok schema)
    (accepted : schema.validate entry checker? = .ok ()) : schema.Conforms checker? entry := by
  have distinctClasses := hasDistinctClasses_of_build built
  have distinct := hasDistinctTypes_of_build built
  obtain ⟨classed, classes, resolved, ⟨cls, isClass, structural⟩, asked, asks, present, checked,
    complete, named, usable⟩ := validate_eq_ok_iff_steps.mp accepted
  have member (cls : ObjectClass) : cls ∈ classes ↔ schema.HasClass entry cls :=
    mem_resolveClasses_iff distinctClasses resolved
  have asksFor := asksFor_requirements asks
  obtain ⟨classesKnown, superiorsKnown⟩ :=
    (exists_resolveClasses_iff_known distinctClasses).mp ⟨classes, resolved⟩
  obtain ⟨listedKnown, objectClassKnown⟩ := exists_requirements_iff.mp ⟨asked, asks⟩
  obtain ⟨attributes, apart⟩ := exists_checkAttributes_iff.mp ⟨present, checked⟩
  exact {
    classed, classesKnown, superiorsKnown, objectClassKnown, apart
    structural := ⟨cls, (member cls).mp isClass, structural⟩
    listedKnown := fun cls has => listedKnown cls ((member cls).mpr has)
    attributes := fun attr listed => by
      obtain ⟨type, known, _, admitted, permitted⟩ := attributes attr listed
      exact ⟨type, known, admitted,
        (permits_iff distinct member asksFor (mem_attributeTypes known)).mp permitted⟩
    complete := (complete_iff distinct member asksFor checked).mp complete
    named := checkNaming_eq_ok_iff.mp named
    usable := unusableRef?_eq_none_iff.mp usable }

theorem Conforms.validate_eq_ok (conforms : schema.Conforms checker? entry)
    (built : build attributeTypes objectClasses = .ok schema) :
    schema.validate entry checker? = .ok () := by
  have distinctClasses := hasDistinctClasses_of_build built
  have distinct := hasDistinctTypes_of_build built
  obtain ⟨classes, resolved⟩ := (exists_resolveClasses_iff_known distinctClasses).mpr
    ⟨conforms.classesKnown, conforms.superiorsKnown⟩
  have member (cls : ObjectClass) : cls ∈ classes ↔ schema.HasClass entry cls :=
    mem_resolveClasses_iff distinctClasses resolved
  obtain ⟨asked, asks⟩ := exists_requirements_iff.mpr
    ⟨fun cls isClass => conforms.listedKnown cls ((member cls).mp isClass),
      conforms.objectClassKnown⟩
  have asksFor := asksFor_requirements asks
  obtain ⟨present, checked⟩ : ∃ present,
      schema.checkAttributes entry.dn asked entry.attributes.values [] checker? = .ok present := by
    refine exists_checkAttributes_iff.mpr ⟨fun attr listed => ?_, conforms.apart⟩
    obtain ⟨type, known, admitted, permits⟩ := conforms.attributes attr listed
    exact ⟨type, known, List.not_mem_nil, admitted,
      (permits_iff distinct member asksFor (mem_attributeTypes known)).mpr permits⟩
  obtain ⟨cls, has, structural⟩ := conforms.structural
  exact validate_eq_ok_iff_steps.mpr ⟨conforms.classed, classes, resolved,
    ⟨cls, (member cls).mpr has, structural⟩, asked, asks, present, checked,
    (complete_iff distinct member asksFor checked).mpr conforms.complete,
    checkNaming_eq_ok_iff.mpr conforms.named, unusableRef?_eq_none_iff.mpr conforms.usable⟩

/-- The checks accept exactly the entries that fit the schema. -/
theorem validate_eq_ok_iff_conforms (built : build attributeTypes objectClasses = .ok schema)
    (entry : Entry) (checker? : Text → Option (Text → Bool)) :
    schema.validate entry checker? = .ok () ↔ schema.Conforms checker? entry :=
  ⟨conforms_of_validate built, fun conforms => conforms.validate_eq_ok built⟩

/-- A person under other names, who fits as long as no syntax wants its values empty. -/
theorem validate_eq_ok_iff_conforms_person :
    ∃ (schema : Schema) (dn : Dn) (entry : Entry), core.extended {} = .ok schema ∧
      Dn.parse "commonName=a,o=b" = .ok dn ∧
      Entry.ofValues dn [("objectClass", ["2.5.6.6"]), ("2.5.4.3", ["A"]), ("surname", ["s"])] =
        entry ∧
      schema.Conforms ValueSyntax.checker? entry ∧
      ¬ schema.Conforms (fun _ => some List.isEmpty) entry := by
  obtain ⟨schema, dn, built, read, accepted, refused⟩ : ∃ (schema : Schema) (dn : Dn),
      core.extended {} = .ok schema ∧ Dn.parse "commonName=a,o=b" = .ok dn ∧
      schema.validate (Entry.ofValues dn
        [("objectClass", ["2.5.6.6"]), ("2.5.4.3", ["A"]), ("surname", ["s"])]) = .ok () ∧
      schema.validate (Entry.ofValues dn
        [("objectClass", ["2.5.6.6"]), ("2.5.4.3", ["A"]), ("surname", ["s"])])
        (fun _ => some List.isEmpty) ≠ .ok () :=
    ⟨_, _, rfl, rfl, by decide +kernel, by decide +kernel⟩
  exact ⟨schema, dn, _, built, read, rfl, (validate_eq_ok_iff_conforms built _ _).mp accepted,
    mt (validate_eq_ok_iff_conforms built _ _).mpr refused⟩

end Schema

end Directory
