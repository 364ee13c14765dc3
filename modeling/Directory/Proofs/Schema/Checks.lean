import Directory.Schema.Conformance
import Mathlib.Logic.Unique

namespace Directory.Schema

open Text

/-! # What the checks of an entry find

Each check of an entry passes exactly under a condition that says nothing of the order in which
lists are gone through.  All facts on accepted entries are taken from these conditions. -/

variable {schema : Schema} {entry : Entry} {attr : Attribute} {type : AttributeType} {dn : Dn}
  {classes : List ObjectClass} {asked : Requirements} {attrs : List Attribute}
  {present oids : List Text} {name oid : Text} {checker? : Text → Option (Text → Bool)}

theorem attributeOid_eq_ok_iff : schema.attributeOid name = .ok oid ↔
    ∃ type, schema.attributeType? name = some type ∧ type.oid = oid := by
  unfold attributeOid
  cases schema.attributeType? name <;> simp

theorem exists_attributeOid_iff : (∃ oid, schema.attributeOid name = .ok oid) ↔
    ∃ type, schema.attributeType? name = some type := by
  unfold attributeOid
  cases schema.attributeType? name <;> simp

theorem exists_requirements_iff : (∃ asked, schema.requirements classes = .ok asked) ↔
    (∀ cls ∈ classes, ∀ name ∈ cls.must ++ cls.may,
        ∃ type, schema.attributeType? name = some type) ∧
      ∃ type, schema.attributeType? Entry.objectClass = some type := by
  have resolved (names : List Text) : (∃ oids, names.mapM schema.attributeOid = .ok oids) ↔
      ∀ name ∈ names, ∃ type, schema.attributeType? name = some type := by
    simp only [exists_mapM_eq_ok_iff, exists_attributeOid_iff]
  constructor
  · rintro ⟨asked, asks⟩
    simp only [requirements, bind_eq_ok_iff] at asks
    obtain ⟨lists, computed, oid, ofObjectClass, _⟩ := asks
    refine ⟨fun cls member => ?_, exists_attributeOid_iff.mp ⟨oid, ofObjectClass⟩⟩
    obtain ⟨_, _, ofClass⟩ := exists_mem_of_mapM computed member
    simp only [bind_eq_ok_iff] at ofClass
    obtain ⟨must, ofMust, may, ofMay, _⟩ := ofClass
    exact List.forall_mem_append.mpr
      ⟨(resolved cls.must).mp ⟨must, ofMust⟩, (resolved cls.may).mp ⟨may, ofMay⟩⟩
  · rintro ⟨listed, objectClass⟩
    obtain ⟨oid, ofObjectClass⟩ := exists_attributeOid_iff.mpr objectClass
    have lists : ∃ lists, (classes.mapM fun cls => do
        let must ← cls.must.mapM schema.attributeOid
        let may ← cls.may.mapM schema.attributeOid
        Except.ok (must, may)) = .ok lists := by
      refine exists_mapM_eq_ok_iff.mpr fun cls member => ?_
      obtain ⟨inMust, inMay⟩ := List.forall_mem_append.mp (listed cls member)
      obtain ⟨must, ofMust⟩ := (resolved cls.must).mpr inMust
      obtain ⟨may, ofMay⟩ := (resolved cls.may).mpr inMay
      exact ⟨(must, may), bind_eq_ok_iff.mpr ⟨must, ofMust, bind_eq_ok_iff.mpr ⟨may, ofMay, rfl⟩⟩⟩
    obtain ⟨lists, computed⟩ := lists
    exact ⟨_, bind_eq_ok_iff.mpr ⟨lists, computed, bind_eq_ok_iff.mpr ⟨oid, ofObjectClass, rfl⟩⟩⟩

/-- What a list of classes asks of the attributes, member by member. -/
structure AsksFor (schema : Schema) (classes : List ObjectClass) (asked : Requirements) :
    Prop where
  must : ∀ oid, oid ∈ asked.must ↔
    ∃ cls ∈ classes, ∃ name ∈ cls.must, schema.attributeOid name = .ok oid
  may : ∀ oid, oid ∈ asked.may ↔ schema.attributeOid Entry.objectClass = .ok oid ∨
    ∃ cls ∈ classes, ∃ name ∈ cls.may, schema.attributeOid name = .ok oid
  extensible : asked.extensible = true ↔
    ∃ cls ∈ classes, ∃ name ∈ cls.names, sameIgnoringCase name extensibleClass = true

theorem mem_flatMap_lists {compute : ObjectClass → Except Error (List Text × List Text)}
    {names : ObjectClass → List Text} {part : List Text × List Text → List Text}
    (each : ∀ cls lists, compute cls = .ok lists →
      (names cls).mapM schema.attributeOid = .ok (part lists))
    {computed : List (List Text × List Text)} (all : classes.mapM compute = .ok computed) :
    oid ∈ computed.flatMap part ↔
      ∃ cls ∈ classes, ∃ name ∈ names cls, schema.attributeOid name = .ok oid := by
  rw [List.mem_flatMap]
  constructor
  · rintro ⟨lists, listed, inPart⟩
    obtain ⟨cls, member, ofClass⟩ := exists_of_mem_mapM all listed
    exact ⟨cls, member, (mem_mapM_iff (each cls lists ofClass)).mp inPart⟩
  · rintro ⟨cls, member, named⟩
    obtain ⟨lists, listed, ofClass⟩ := exists_mem_of_mapM all member
    exact ⟨lists, listed, (mem_mapM_iff (each cls lists ofClass)).mpr named⟩

theorem asksFor_requirements (asks : schema.requirements classes = .ok asked) :
    schema.AsksFor classes asked := by
  simp only [requirements, bind_eq_ok_iff] at asks
  obtain ⟨lists, computed, objectClassOid, ofObjectClass, same⟩ := asks
  cases same
  constructor
  case must =>
    refine fun oid => mem_flatMap_lists (fun cls lists ofClass => ?_) computed
    simp only [bind_eq_ok_iff] at ofClass
    obtain ⟨must, ofMust, may, _, same⟩ := ofClass
    cases same
    exact ofMust
  case may =>
    intro oid
    rw [List.mem_cons, ofObjectClass, Except.ok.injEq, eq_comm]
    refine or_congr_right (mem_flatMap_lists (fun cls lists ofClass => ?_) computed)
    simp only [bind_eq_ok_iff] at ofClass
    obtain ⟨must, _, may, ofMay, same⟩ := ofClass
    cases same
    exact ofMay
  case extensible => simp

/-- The values that an attribute of a type may have. -/
structure AdmitsValues (checker? : Text → Option (Text → Bool)) (type : AttributeType)
    (values : List Text) : Prop where
  present : values ≠ []
  single : type.singleValue = true → values.length ≤ 1
  checked : ∀ accepts, checker? type.syntaxOid = some accepts →
    ∀ value ∈ values, accepts value = true

def HaveOtherOids (schema : Schema) (left right : Attribute) : Prop :=
  ∀ type other, schema.attributeType? left.id = some type →
    schema.attributeType? right.id = some other → type.oid ≠ other.oid

theorem badValue?_eq_none_iff {values : List Text} : badValue? checker? type values = none ↔
    ∀ accepts, checker? type.syntaxOid = some accepts →
      ∀ value ∈ values, accepts value = true := by
  unfold badValue?
  cases checker? type.syntaxOid <;> simp

theorem checkAttribute_accepts_iff :
    schema.checkAttribute dn asked present attr checker? = .ok oid ↔
      ∃ type, schema.attributeType? attr.id = some type ∧ type.oid = oid ∧ oid ∉ present ∧
        AdmitsValues checker? type attr.values ∧ asked.permits type = true := by
  unfold checkAttribute
  cases schema.attributeType? attr.id with
  | none => simp
  | some type =>
    simp only [bind_eq_ok_iff, refuseIf_eq_ok_iff, refuseAny_eq_ok_iff, badValue?_eq_none_iff]
    constructor
    · rintro ⟨_, fresh, _, held, _, few, _, checked, _, permitted, same⟩
      cases same
      exact ⟨type, rfl, rfl, by simpa using fresh,
        ⟨by simpa using held, by simpa using few, checked⟩, by simpa using permitted⟩
    · rintro ⟨_, ⟨⟩, rfl, fresh, ⟨held, few, checked⟩, permitted⟩
      exact ⟨(), by simpa using fresh, (), by simpa using held, (), by simpa using few, (), checked,
        (), by simpa using permitted, rfl⟩

theorem mem_checkAttributes_iff
    (checked : schema.checkAttributes dn asked attrs present checker? = .ok oids) :
    oid ∈ oids ↔ oid ∈ present ∨ ∃ attr ∈ attrs, schema.attributeOid attr.id = .ok oid := by
  induction attrs generalizing present with
  | nil =>
    cases checked
    simp
  | cons attr rest ih =>
    simp only [checkAttributes, bind_eq_ok_iff, checkAttribute_accepts_iff] at checked
    obtain ⟨first, ⟨type, known, same, _⟩, later⟩ := checked
    have ofFirst : schema.attributeOid attr.id = .ok first :=
      attributeOid_eq_ok_iff.mpr ⟨type, known, same⟩
    rw [ih later]
    simp only [List.mem_cons, exists_eq_or_imp, ofFirst, Except.ok.injEq]
    grind

theorem exists_checkAttributes_iff :
    (∃ oids, schema.checkAttributes dn asked attrs present checker? = .ok oids) ↔
      (∀ attr ∈ attrs, ∃ type, schema.attributeType? attr.id = some type ∧
        type.oid ∉ present ∧ AdmitsValues checker? type attr.values ∧
        asked.permits type = true) ∧
      attrs.Pairwise schema.HaveOtherOids := by
  induction attrs generalizing present with
  | nil => simp [checkAttributes]
  | cons attr rest ih =>
    have steps : (∃ oids, schema.checkAttributes dn asked (attr :: rest) present checker? =
          .ok oids) ↔
        ∃ oid, schema.checkAttribute dn asked present attr checker? = .ok oid ∧
          ∃ oids, schema.checkAttributes dn asked rest (oid :: present) checker? = .ok oids := by
      simp only [checkAttributes, bind_eq_ok_iff]
      exact ⟨fun ⟨oids, oid, first, later⟩ => ⟨oid, first, oids, later⟩,
        fun ⟨oid, first, oids, later⟩ => ⟨oids, oid, first, later⟩⟩
    rw [steps, List.forall_mem_cons, List.pairwise_cons]
    simp only [ih, checkAttribute_accepts_iff, List.mem_cons, not_or]
    constructor
    · rintro ⟨_, ⟨type, known, rfl, fresh, admitted⟩, others, apart⟩
      refine ⟨⟨⟨type, known, fresh, admitted⟩, fun other member => ?_⟩, fun other member => ?_,
        apart⟩
      · obtain ⟨otherType, otherKnown, ⟨_, otherFresh⟩, otherAdmitted⟩ := others other member
        exact ⟨otherType, otherKnown, otherFresh, otherAdmitted⟩
      · intro first second firstKnown secondKnown same
        obtain ⟨otherType, otherKnown, ⟨different, _⟩, _⟩ := others other member
        cases known.symm.trans firstKnown
        cases otherKnown.symm.trans secondKnown
        exact different same.symm
    · rintro ⟨⟨⟨type, known, fresh, admitted⟩, others⟩, different, apart⟩
      refine ⟨type.oid, ⟨type, known, rfl, fresh, admitted⟩, fun other member => ?_, apart⟩
      obtain ⟨otherType, otherKnown, otherFresh, otherAdmitted⟩ := others other member
      exact ⟨otherType, otherKnown,
        ⟨(different other member type otherType known otherKnown).symm, otherFresh⟩, otherAdmitted⟩

theorem checkNaming_eq_ok_iff : schema.checkNaming entry = .ok () ↔
    ∀ rdn, entry.dn.rdn? = some rdn → ∃ type, schema.attributeType? rdn.attrType = some type ∧
      ∃ designator ∈ type.designators, ∃ value ∈ entry.values designator,
        type.equality.equates value rdn.value = true := by
  unfold checkNaming
  cases entry.dn.rdn? with
  | none => simp
  | some rdn =>
    simp only [Option.some.injEq, forall_eq']
    cases schema.attributeType? rdn.attrType with
    | none => simp
    | some type =>
      simp only [refuseIf_eq_ok_iff, Bool.not_eq_false', valuesOf, List.any_flatMap,
        List.any_eq_true, Option.some.injEq, exists_eq_left']

theorem validate_eq_ok_iff_steps : schema.validate entry checker? = .ok () ↔
    entry.objectClasses ≠ [] ∧ ∃ classes, schema.resolveClasses entry.objectClasses = .ok classes ∧
      (∃ cls ∈ classes, cls.kind = .structural) ∧
      ∃ asked, schema.requirements classes = .ok asked ∧
        ∃ present, schema.checkAttributes entry.dn asked entry.attributes.values [] checker? =
            .ok present ∧
          (∀ oid ∈ asked.must, oid ∈ present) ∧ schema.checkNaming entry = .ok () ∧
          unusableRef? entry = none := by
  simp [validate, bind_eq_ok_iff, refuseIf_eq_ok_iff, refuseAny_eq_ok_iff, missingNames_eq_nil_iff,
    Unique.exists_iff]

end Directory.Schema
