import Directory.Proofs.Schema.ClassClosure
import Directory.Proofs.Schema.TypeNames
import Directory.Schema.Core

namespace Directory

open Text

/-! # What the names of a schema lead to

A schema files definitions under their designators as these are spelled, and the references of its
classes are checked against that.  A name is looked for without the blanks at its ends.  So it leads
back to a definition exactly if what is left of it designates the definition as well. -/

/-- Where a space ends a word in one text and the text of a name in another, the texts differ. -/
theorem Dn.text_append_space_ne {word : Text} (present : word ≠ [])
    (lettered : ∀ c ∈ word, c.isAlpha = true) (dn : Dn) (behind rest : Text) :
    dn.text ++ ' ' :: behind ≠ word ++ ' ' :: rest := by
  have solid : ∀ c ∈ word, c ≠ ' ' ∧ c ≠ '=' := by
    intro c member
    have letter := lettered c member
    constructor <;> rintro rfl <;> contradiction
  intro same
  obtain ⟨first, letters, rfl⟩ := List.exists_cons_of_ne_nil present
  obtain ⟨steps⟩ := dn
  cases steps with
  | nil =>
    simp only [text, List.map_nil, joinWith, List.nil_append, List.cons_append,
      List.cons.injEq] at same
    exact (solid first List.mem_cons_self).1 same.1.symm
  | cons rdn above =>
    obtain ⟨more, shown⟩ : ∃ more, Dn.text ⟨rdn :: above⟩ = rdn.attrType ++ '=' :: more := by
      cases above with
      | nil => exact ⟨_, rfl⟩
      | cons next others =>
        refine ⟨Rdn.escapeValue rdn.value ++
          ',' :: joinWith ',' ((next :: others).map Rdn.text), ?_⟩
        rw [text, List.map_cons, List.map_cons, joinWith, Rdn.text, Rdn.written,
          List.append_assoc, List.cons_append]
    have spaceless : ' ' ∉ rdn.attrType :=
      not_mem_of_described (isAttributeType_characters rdn.typeValid) (by decide) (by decide)
    rw [shown, List.append_assoc, List.cons_append, List.append_eq_append_iff] at same
    rcases same with ⟨between, whole, ends⟩ | ⟨between, whole, ends⟩
    · cases between with
      | nil => simp at ends
      | cons c others =>
        simp only [List.cons_append, List.cons.injEq] at ends
        exact (solid '=' (by rw [whole, ends.1]; simp)).2 rfl
    · cases between with
      | nil => simp at ends
      | cons c others =>
        simp only [List.cons_append, List.cons.injEq] at ends
        exact spaceless (by rw [whole, ends.1]; simp)

namespace Schema

/-- What a name is without the blanks at its ends is one of the designators, in any letter case. -/
def Designates (name : Text) (designators : List Text) : Prop :=
  ∃ designator ∈ designators, sameIgnoringCase designator name.trim = true

instance (name : Text) (designators : List Text) : Decidable (Designates name designators) :=
  inferInstanceAs (Decidable (∃ _ ∈ _, _))

variable {schema : Schema} {attributeTypes : List AttributeType} {objectClasses : List ObjectClass}
  {type : AttributeType} {cls : ObjectClass} {classes : List ObjectClass} {entry : Entry}
  {name designator : Text} {refusal : Error} {checker? : Text → Option (Text → Bool)}

theorem designates_iff {designators : List Text} : Designates name designators ↔
    ∃ designator ∈ designators, asciiLower designator = lookupKey name := by
  simp only [Designates, sameIgnoringCase_iff]
  rfl

theorem designates_congr_of_sameIgnoringCase {designators : List Text}
    (spelled : sameIgnoringCase name designator = true) :
    Designates name designators ↔ Designates designator designators := by
  rw [designates_iff, designates_iff,
    lookupKey_eq_of_asciiLower (sameIgnoringCase_iff.mp spelled)]

theorem HasDistinctTypes.attributeType?_eq_some_iff_designates (distinct : schema.HasDistinctTypes)
    (listed : type ∈ schema.attributeTypes) :
    schema.attributeType? name = some type ↔ Designates name type.designators := by
  rw [distinct.attributeType?_eq_some_iff, and_iff_right listed, designates_iff]

theorem HasDistinctClasses.objectClass?_eq_some_iff_designates
    (distinct : schema.HasDistinctClasses) (listed : cls ∈ schema.objectClasses) :
    schema.objectClass? name = some cls ↔ Designates name cls.designators := by
  rw [distinct.objectClass?_eq_some_iff, and_iff_right listed, designates_iff]

theorem find?_unfiled_eq_none_iff {α : Type} (definitions : List α) (designators : α → List Text)
    (names : List Text) :
    (names.find? fun name => !definitions.any fun known =>
        isFiledUnder (asciiLower name) (designators known)) = none ↔
      ∀ name ∈ names, ∃ known ∈ definitions,
        isFiledUnder (asciiLower name) (designators known) = true := by
  simp [List.find?_eq_none]

theorem danglingReference?_eq_none_iff : schema.danglingReference? cls = none ↔
    (∀ superior ∈ cls.superiors, ∃ checked ∈ schema.objectClasses,
        isFiledUnder (asciiLower superior) checked.designators = true) ∧
      ∀ name ∈ cls.must ++ cls.may, ∃ checked ∈ schema.attributeTypes,
        isFiledUnder (asciiLower name) checked.designators = true := by
  rw [← find?_unfiled_eq_none_iff schema.objectClasses ObjectClass.designators,
    ← find?_unfiled_eq_none_iff schema.attributeTypes AttributeType.designators]
  simp only [danglingReference?]
  split
  · next name found => simp [found]
  · next found =>
    rw [and_iff_right found]
    split
    · next name unknown => simp [unknown]
    · next unknown => simp [unknown]

theorem references_of_build (built : build attributeTypes objectClasses = .ok schema) :
    schema = ⟨attributeTypes, objectClasses⟩ ∧
      ∀ cls ∈ objectClasses, schema.danglingReference? cls = none := by
  simp only [build, bind_eq_ok_iff, refuseAny_eq_ok_iff] at built
  obtain ⟨_, _, _, _, _, complete, same⟩ := built
  cases same
  exact ⟨rfl, by simpa using complete⟩

theorem attributeOid_eq_error (refused : schema.attributeOid name = .error refusal) :
    refusal = .undefinedAttributeType name ∧ schema.attributeType? name = none := by
  unfold attributeOid at refused
  split at refused
  · next unknown =>
    cases refused
    exact ⟨rfl, unknown⟩
  · contradiction

theorem exists_unknown_of_attributeOids {names : List Text}
    (refused : names.mapM schema.attributeOid = .error refusal) :
    ∃ name ∈ names, refusal = .undefinedAttributeType name ∧ schema.attributeType? name = none := by
  obtain ⟨name, among, refused⟩ := exists_of_mapM_eq_error refused
  exact ⟨name, among, attributeOid_eq_error refused⟩

theorem exists_unknown_of_requirements (refused : schema.requirements classes = .error refusal) :
    ∃ name, refusal = .undefinedAttributeType name ∧ schema.attributeType? name = none ∧
      (name = Entry.objectClass ∨ ∃ cls ∈ classes, name ∈ cls.must ++ cls.may) := by
  simp only [requirements, bind_eq_error_iff] at refused
  rcases refused with lists | ⟨_, _, objectClass | ⟨_, _, impossible⟩⟩
  · obtain ⟨cls, listed, refused⟩ := exists_of_mapM_eq_error lists
    simp only [bind_eq_error_iff] at refused
    rcases refused with must | ⟨_, _, may | ⟨_, _, impossible⟩⟩
    · obtain ⟨name, among, same, unknown⟩ := exists_unknown_of_attributeOids must
      exact ⟨name, same, unknown, .inr ⟨cls, listed, List.mem_append_left _ among⟩⟩
    · obtain ⟨name, among, same, unknown⟩ := exists_unknown_of_attributeOids may
      exact ⟨name, same, unknown, .inr ⟨cls, listed, List.mem_append_right _ among⟩⟩
    · contradiction
  · obtain ⟨same, unknown⟩ := attributeOid_eq_error objectClass
    exact ⟨_, same, unknown, .inl rfl⟩
  · contradiction

/-- The attribute types that an entry is found to use. -/
inductive UsesType (entry : Entry) : Text → Prop where
  | objectClass : UsesType entry Entry.objectClass
  | attribute {attr : Attribute} (listed : attr ∈ entry.attributes.values) : UsesType entry attr.id
  | naming {rdn : Rdn} (leaf : entry.dn.rdn? = some rdn) : UsesType entry rdn.attrType

/-- If the refusal says that a name is unknown, then the entry gives the name. -/
structure BlamesEntry (entry : Entry) (refusal : Error) : Prop where
  ofClass : ∀ name, refusal = .schemaViolation ("unknown object class " ++ name) →
    name ∈ entry.objectClasses
  ofType : ∀ name, refusal = .undefinedAttributeType name → UsesType entry name

theorem BlamesEntry.of_undefined (uses : UsesType entry name) :
    BlamesEntry entry (.undefinedAttributeType name) where
  ofClass := nofun
  ofType := by
    rintro _ ⟨⟩
    exact uses

theorem BlamesEntry.of_schemaViolation {reason : Text}
    (other : ∀ name, reason ≠ "unknown object class " ++ name) :
    BlamesEntry entry (.schemaViolation reason) where
  ofClass name same := absurd (Error.schemaViolation.inj same) (other name)
  ofType := nofun

theorem BlamesEntry.of_invalidAttributeSyntax {attr value : Text} :
    BlamesEntry entry (.invalidAttributeSyntax attr value) :=
  ⟨nofun, nofun⟩

theorem ne_unknown_of_head {reason : Text} {c : Char} (first : reason.head? = some c)
    (other : c ≠ 'u') (name : Text) : reason ≠ "unknown object class " ++ name := by
  rintro rfl
  have letter : (ofLiteral "unknown object class ").head? = some 'u' := by decide +kernel
  rw [List.head?_append, letter, Option.some_or, Option.some.injEq] at first
  exact other first.symm

theorem ne_unknown_of_dn (dn : Dn) (behind name : Text) :
    dn.text ++ ' ' :: behind ≠ "unknown object class " ++ name := by
  have words : ofLiteral "unknown object class " =
      ofLiteral "unknown" ++ ' ' :: ofLiteral "object class " := by decide +kernel
  have letters : (ofLiteral "unknown").all Char.isAlpha = true := by decide +kernel
  rw [words, List.append_assoc, List.cons_append]
  exact Dn.text_append_space_ne (by decide +kernel) (List.all_eq_true.mp letters) dn behind _

theorem blamesEntry_checkAttribute {dn : Dn} {asked : Requirements} {present : List Text}
    {attr : Attribute} (listed : attr ∈ entry.attributes.values) :
    RefusesOnly (BlamesEntry entry) (schema.checkAttribute dn asked present attr checker?) := by
  unfold checkAttribute
  split
  · exact .error (.of_undefined (.attribute listed))
  · have other (more name : Text) :
        ofLiteral "attribute " ++ more ≠ "unknown object class " ++ name := by
      have letter : (ofLiteral "attribute ").head? = some 'a' := by decide +kernel
      exact ne_unknown_of_head (by rw [List.head?_append, letter, Option.some_or]) (by decide) name
    refine .bind (.refuseIf (.of_schemaViolation fun name => ?_)) fun _ _ =>
      .bind (.refuseIf (.of_schemaViolation fun name => ?_)) fun _ _ =>
        .bind (.refuseIf (.of_schemaViolation fun name => ?_)) fun _ _ =>
          .bind (.refuseAny fun _ => .of_invalidAttributeSyntax) fun _ _ =>
            .bind (.refuseIf (.of_schemaViolation fun name => ?_)) fun _ _ => .ok _
    all_goals simp only [List.append_assoc]; exact other _ name

theorem blamesEntry_checkAttributes {dn : Dn} {asked : Requirements} {attrs : List Attribute}
    {present : List Text} (listed : ∀ attr ∈ attrs, attr ∈ entry.attributes.values) :
    RefusesOnly (BlamesEntry entry) (schema.checkAttributes dn asked attrs present checker?) := by
  induction attrs generalizing present with
  | nil => exact .ok present
  | cons attr rest ih =>
    obtain ⟨here, later⟩ := List.forall_mem_cons.mp listed
    exact (blamesEntry_checkAttribute here).bind fun _ _ => ih later

theorem blamesEntry_checkNaming : RefusesOnly (BlamesEntry entry) (schema.checkNaming entry) := by
  unfold checkNaming
  split
  · exact .ok ()
  · next rdn leaf =>
    split
    · exact .error (.of_undefined (.naming leaf))
    · have letter : (ofLiteral "RDN value ").head? = some 'R' := by decide +kernel
      refine .refuseIf (.of_schemaViolation (ne_unknown_of_head (c := 'R') ?_ (by decide)))
      rw [List.append_assoc, List.head?_append, letter, Option.some_or]

/-- Every reference of a class designates a definition also without the blanks at its ends. -/
structure HasReachableReferences (schema : Schema) : Prop where
  superiors : ∀ cls ∈ schema.objectClasses, ∀ superior ∈ cls.superiors,
    ∃ above ∈ schema.objectClasses, Designates superior above.designators
  attributes : ∀ cls ∈ schema.objectClasses, ∀ name ∈ cls.must ++ cls.may,
    ∃ type ∈ schema.attributeTypes, Designates name type.designators

theorem blamesEntry_resolveClasses (distinct : schema.HasDistinctClasses)
    (reachable : schema.HasReachableReferences) :
    RefusesOnly (BlamesEntry entry) (schema.resolveClasses entry.objectClasses) := by
  intro refusal refused
  obtain ⟨name, rfl, unknown, declared | ⟨_, _, cls, inherits, superior⟩⟩ :=
    exists_unknown_of_classClosure refused
  · refine ⟨fun other same => ?_, nofun⟩
    rw [← List.append_cancel_left (Error.schemaViolation.inj same)]
    exact List.mem_reverse.mp declared
  · obtain ⟨above, isClass, designates⟩ :=
      reachable.superiors cls inherits.mem_objectClasses name superior
    rw [(distinct.objectClass?_eq_some_iff_designates isClass).mpr designates] at unknown
    contradiction

theorem blamesEntry_requirements (distinct : schema.HasDistinctTypes)
    (reachable : schema.HasReachableReferences)
    (known : ∀ cls ∈ classes, cls ∈ schema.objectClasses) :
    RefusesOnly (BlamesEntry entry) (schema.requirements classes) := by
  intro refusal refused
  obtain ⟨name, rfl, unknown, rfl | ⟨cls, listed, among⟩⟩ := exists_unknown_of_requirements refused
  · exact .of_undefined .objectClass
  · obtain ⟨type, isType, designates⟩ := reachable.attributes cls (known cls listed) name among
    rw [(distinct.attributeType?_eq_some_iff_designates isType).mpr designates] at unknown
    contradiction

/-- Where references can be followed, no entry is refused because one of them cannot. -/
theorem blamesEntry_validate (distinctTypes : schema.HasDistinctTypes)
    (distinctClasses : schema.HasDistinctClasses) (reachable : schema.HasReachableReferences) :
    RefusesOnly (BlamesEntry entry) (schema.validate entry checker?) := by
  have noClass : ofLiteral " has no objectClass" = ' ' :: ofLiteral "has no objectClass" := by
    decide +kernel
  have noStructural : ofLiteral " has no structural object class" =
      ' ' :: ofLiteral "has no structural object class" := by decide +kernel
  have missing : ofLiteral " is missing required attribute " =
      ' ' :: ofLiteral "is missing required attribute " := by decide +kernel
  refine .bind (.refuseIf (.of_schemaViolation fun name => ?_)) fun _ _ =>
    .bind (blamesEntry_resolveClasses distinctClasses reachable) fun classes resolved =>
      .bind (.refuseIf (.of_schemaViolation fun name => ?_)) fun _ _ =>
        .bind (blamesEntry_requirements distinctTypes reachable ?_) fun _ _ =>
          .bind (blamesEntry_checkAttributes fun _ listed => listed) fun _ _ =>
            .bind (.refuseIf (.of_schemaViolation fun name => ?_)) fun _ _ =>
              .bind blamesEntry_checkNaming fun _ _ =>
                .refuseAny fun _ => .of_invalidAttributeSyntax
  · rw [noClass]
    exact ne_unknown_of_dn _ _ name
  · rw [noStructural]
    exact ne_unknown_of_dn _ _ name
  · intro cls member
    obtain ⟨name, _, inherits⟩ := (mem_resolveClasses_iff distinctClasses resolved).mp member
    exact inherits.mem_objectClasses
  · rw [missing, List.append_assoc, List.cons_append]
    exact ne_unknown_of_dn _ _ name

/-- In a schema that was built a designator leads back to its definition, in any letter case,
exactly if it designates the definition also without the blanks at its ends.  A reference of a
class leads to the definition it was checked against exactly if it designates that one so, and if
all references lead somewhere, no entry is refused because of one. -/
theorem lookups_lead_back_iff (built : build attributeTypes objectClasses = .ok schema) :
    (∀ type ∈ attributeTypes, ∀ designator ∈ type.designators, ∀ name,
        sameIgnoringCase name designator = true →
          (schema.attributeType? name = some type ↔ Designates designator type.designators)) ∧
      (∀ cls ∈ objectClasses, ∀ designator ∈ cls.designators, ∀ name,
        sameIgnoringCase name designator = true →
          (schema.objectClass? name = some cls ↔ Designates designator cls.designators)) ∧
      (∀ cls ∈ objectClasses, ∀ superior ∈ cls.superiors, ∃ checked ∈ objectClasses,
        isFiledUnder (asciiLower superior) checked.designators = true ∧
          (schema.objectClass? superior = some checked ↔
            Designates superior checked.designators)) ∧
      (∀ cls ∈ objectClasses, ∀ name ∈ cls.must ++ cls.may, ∃ checked ∈ attributeTypes,
        isFiledUnder (asciiLower name) checked.designators = true ∧
          (schema.attributeType? name = some checked ↔ Designates name checked.designators)) ∧
      (schema.HasReachableReferences → ∀ entry checker?,
        RefusesOnly (BlamesEntry entry) (schema.validate entry checker?)) := by
  have distinctTypes := hasDistinctTypes_of_build built
  have distinctClasses := hasDistinctClasses_of_build built
  obtain ⟨rfl, complete⟩ := references_of_build built
  refine ⟨?_, ?_, ?_, ?_, ?_⟩
  · intro type listed designator _ name spelled
    rw [distinctTypes.attributeType?_eq_some_iff_designates listed,
      designates_congr_of_sameIgnoringCase spelled]
  · intro cls listed designator _ name spelled
    rw [distinctClasses.objectClass?_eq_some_iff_designates listed,
      designates_congr_of_sameIgnoringCase spelled]
  · intro cls listed superior above
    obtain ⟨checked, isClass, filed⟩ :=
      (danglingReference?_eq_none_iff.mp (complete cls listed)).1 superior above
    exact ⟨checked, isClass, filed,
      distinctClasses.objectClass?_eq_some_iff_designates isClass⟩
  · intro cls listed name among
    obtain ⟨checked, isType, filed⟩ :=
      (danglingReference?_eq_none_iff.mp (complete cls listed)).2 name among
    exact ⟨checked, isType, filed, distinctTypes.attributeType?_eq_some_iff_designates isType⟩
  · intro reachable entry checker?
    exact blamesEntry_validate distinctTypes distinctClasses reachable

/-- Two classes above each other, and a name with a blank before it that is one without it too. -/
def paddedExtensions : SchemaExtensions where
  attributeTypes :=
    [{ oid := "1.2.3", names := [" pad", "pad"], syntaxOid := ValueSyntax.directoryString.oid }]
  objectClasses :=
    [{ oid := "1.2.4", names := ["left"], kind := .structural, superiors := ["RIGHT"] },
      { oid := "1.2.5", names := ["right"], kind := .structural, superiors := ["Left"],
        may := [" Pad"] }]

theorem lookups_lead_back_iff_padded :
    ∃ (schema : Schema) (type : AttributeType) (cls checked : ObjectClass),
      core.extended paddedExtensions = .ok schema ∧
      (type ∈ schema.attributeTypes ∧ ofLiteral " pad" ∈ type.designators ∧
        sameIgnoringCase " PAD" " pad" = true ∧ schema.attributeType? " PAD" = some type) ∧
      (cls ∈ schema.objectClasses ∧ ofLiteral "Left" ∈ cls.superiors ∧
        isFiledUnder (asciiLower "Left") checked.designators = true ∧
        schema.objectClass? "Left" = some checked) ∧
      schema.HasReachableReferences ∧
      ∀ entry checker?, RefusesOnly (BlamesEntry entry) (schema.validate entry checker?) := by
  obtain ⟨schema, built, ⟨type, listed, named, spelled, again⟩, ⟨cls, isClass, above⟩, leftOnly,
      superiors, attributes⟩ : ∃ schema, core.extended paddedExtensions = .ok schema ∧
      (∃ type ∈ schema.attributeTypes, ofLiteral " pad" ∈ type.designators ∧
        sameIgnoringCase " PAD" " pad" = true ∧ Designates " pad" type.designators) ∧
      (∃ cls ∈ schema.objectClasses, ofLiteral "Left" ∈ cls.superiors) ∧
      (∀ checked ∈ schema.objectClasses,
        isFiledUnder (asciiLower "Left") checked.designators = true →
          Designates "Left" checked.designators) ∧
      (∀ cls ∈ schema.objectClasses, ∀ superior ∈ cls.superiors,
        ∃ above ∈ schema.objectClasses, Designates superior above.designators) ∧
      ∀ cls ∈ schema.objectClasses, ∀ name ∈ cls.must ++ cls.may,
        ∃ type ∈ schema.attributeTypes, Designates name type.designators :=
    ⟨_, rfl, by decide +kernel⟩
  obtain ⟨same, _⟩ := references_of_build built
  have lists := extended_eq_ok built
  obtain ⟨types, _, checkedClasses, _, blames⟩ := lookups_lead_back_iff built
  rw [← lists.1] at types
  rw [← lists.2] at checkedClasses
  obtain ⟨checked, isChecked, filed, leads⟩ := checkedClasses cls isClass _ above
  exact ⟨schema, type, cls, checked, built,
    ⟨listed, named, spelled, (types type listed _ named _ spelled).mpr again⟩,
    ⟨isClass, above, filed, leads.mpr (leftOnly checked isChecked filed)⟩,
    ⟨superiors, attributes⟩, blames ⟨superiors, attributes⟩⟩

/-- A name with a blank before it, and a superior with one behind it. -/
def strayExtensions : SchemaExtensions where
  attributeTypes :=
    [{ oid := "1.2.3", names := [" pad"], syntaxOid := ValueSyntax.directoryString.oid }]
  objectClasses :=
    [{ oid := "1.2.4", names := ["base "], kind := .abstract },
      { oid := "1.2.5", names := ["thing"], kind := .structural, superiors := ["base "],
        may := [" pad", "cn"] }]

/-- The schema is built, its names lead nowhere, and no entry can be of the class. -/
theorem padded_references_lead_nowhere :
    ∃ (schema : Schema) (dn : Dn) (entry : Entry), core.extended strayExtensions = .ok schema ∧
      (∃ type ∈ schema.attributeTypes, ofLiteral " pad" ∈ type.designators ∧
        schema.attributeType? " pad" = none) ∧
      (∃ cls ∈ schema.objectClasses, ofLiteral "base " ∈ cls.superiors ∧
        ofLiteral " pad" ∈ cls.may ∧ schema.objectClass? "base " = none) ∧
      Dn.parse "cn=a,o=b" = .ok dn ∧
      Entry.ofValues dn [("objectClass", ["thing"]), ("cn", ["a"])] = entry ∧
      ofLiteral "base " ∉ entry.objectClasses ∧
      schema.validate entry =
        .error (.schemaViolation ("unknown object class " ++ ofLiteral "base ")) :=
  ⟨_, _, _, rfl, by decide +kernel, by decide +kernel, rfl, rfl, by decide +kernel,
    by decide +kernel⟩

end Schema

end Directory
