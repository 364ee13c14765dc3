import Directory.Entry.Basic
import Directory.Schema.Basic

namespace Directory.Schema

open Text

/-! # Conformance

What makes an entry fit a schema: its object classes and all they inherit from are
known, one of them is structural, every attribute is known, permitted and has admitted
values, every required attribute is there, the entry holds the value that names it,
and a delegation holds only usable URLs.  `validate` reports the first fault in a fixed
order, but which of several missing attributes is named is left open. -/

/-- The classes of the schema that a list does not have yet. -/
def unseen (schema : Schema) (found : List ObjectClass) : List ObjectClass :=
  schema.objectClasses.filter fun cls => !found.any fun seen => seen.oid == cls.oid

/-- How many superiors classes name. -/
def superiorCount : List ObjectClass → Nat
  | [] => 0
  | cls :: rest => cls.superiors.length + superiorCount rest

theorem superiorCount_filter_le (keep : ObjectClass → Bool) (classes : List ObjectClass) :
    superiorCount (classes.filter keep) ≤ superiorCount classes := by
  induction classes with
  | nil => exact Nat.le_refl _
  | cons cls rest ih =>
    rw [List.filter_cons]
    split <;> simp only [superiorCount] <;> omega

theorem superiorCount_filter_add_le {keep : ObjectClass → Bool} {classes : List ObjectClass}
    {cls : ObjectClass} (member : cls ∈ classes) (dropped : keep cls = false) :
    superiorCount (classes.filter keep) + cls.superiors.length ≤ superiorCount classes := by
  induction classes with
  | nil => simp at member
  | cons first rest ih =>
    rcases List.mem_cons.mp member with rfl | member
    · have bound := superiorCount_filter_le keep rest
      simp only [List.filter_cons, dropped, superiorCount, Bool.false_eq_true, if_false]
      omega
    · have bound := ih member
      rw [List.filter_cons]
      split <;> simp only [superiorCount] <;> omega

/-- Entering a class takes its superiors from those that are still to be met. -/
theorem superiorCount_unseen_add_le {schema : Schema} {found : List ObjectClass} {name : Text}
    {cls : ObjectClass} (known : schema.objectClass? name = some cls)
    (fresh : ¬ (found.any fun seen => seen.oid == cls.oid) = true) :
    superiorCount (schema.unseen (found ++ [cls])) + cls.superiors.length ≤
      superiorCount (schema.unseen found) := by
  have shrinks : schema.unseen (found ++ [cls]) =
      (schema.unseen found).filter fun other => !(cls.oid == other.oid) := by
    simp only [unseen, List.filter_filter]
    congr 1
    funext other
    simp [Bool.and_comm]
  rw [shrinks]
  apply superiorCount_filter_add_le
  · simp only [unseen, List.mem_filter]
    exact ⟨mem_objectClasses known, by simpa using fresh⟩
  · simp

/-- The classes that can be reached from the pending names, after those already found.
The name at the front is followed first, and each class is entered once. -/
def classClosure (schema : Schema) (pending : List Text) (found : List ObjectClass) :
    Except Error (List ObjectClass) :=
  match pending with
  | [] => .ok found
  | name :: rest =>
    match _ : schema.objectClass? name with
    | none => .error (.schemaViolation ("unknown object class " ++ name))
    | some cls =>
      if _ : (found.any fun seen => seen.oid == cls.oid) = true then
        schema.classClosure rest found
      else schema.classClosure (cls.superiors.reverse ++ rest) (found ++ [cls])
termination_by pending.length + superiorCount (schema.unseen found)
decreasing_by
  · simp only [List.length_cons]
    omega
  · rename_i known fresh
    have bound := superiorCount_unseen_add_le known fresh
    simp only [List.length_append, List.length_reverse, List.length_cons]
    omega

/-- The declared classes and everything they inherit from; the last declared class is
followed first. -/
def resolveClasses (schema : Schema) (declared : List Text) :
    Except Error (List ObjectClass) :=
  schema.classClosure declared.reverse []

def attributeOid (schema : Schema) (name : Text) : Except Error Text :=
  match schema.attributeType? name with
  | none => .error (.undefinedAttributeType name)
  | some type => .ok type.oid

/-- The name of a class whose entries may have every attribute. -/
def extensibleClass : Text := "extensibleobject"

/-- What a list of classes asks of the attributes of an entry, by object identifier. -/
structure Requirements where
  must : List Text
  may : List Text
  /-- Whether every attribute is permitted. -/
  extensible : Bool

def requirements (schema : Schema) (classes : List ObjectClass) : Except Error Requirements := do
  let lists ← classes.mapM fun cls => do
    let must ← cls.must.mapM schema.attributeOid
    let may ← cls.may.mapM schema.attributeOid
    Except.ok (must, may)
  let objectClassOid ← schema.attributeOid Entry.objectClass
  .ok {
    must := lists.flatMap Prod.fst
    may := objectClassOid :: lists.flatMap Prod.snd
    extensible := classes.any fun cls =>
      cls.names.any fun name => sameIgnoringCase name extensibleClass }

def Requirements.permits (asked : Requirements) (type : AttributeType) : Bool :=
  type.isOperational || asked.extensible || asked.must.contains type.oid ||
    asked.may.contains type.oid

/-- The first value that the checker of a type's syntax refuses. -/
def badValue? (checker? : Text → Option (Text → Bool)) (type : AttributeType)
    (values : List Text) : Option Text :=
  match checker? type.syntaxOid with
  | none => none
  | some accepts => values.find? fun value => !accepts value

/-- Checks one attribute of an entry that has the types `present` already, and returns
its own. -/
def checkAttribute (schema : Schema) (dn : Dn) (asked : Requirements) (present : List Text)
    (attr : Attribute) (checker? : Text → Option (Text → Bool) := ValueSyntax.checker?) :
    Except Error Text :=
  match schema.attributeType? attr.id with
  | none => .error (.undefinedAttributeType attr.id)
  | some type => do
    refuseIf (present.contains type.oid) (.schemaViolation
      ("attribute " ++ type.primaryName ++ " given more than once under different names"))
    refuseIf attr.values.isEmpty (.schemaViolation ("attribute " ++ attr.id ++ " has no values"))
    refuseIf (type.singleValue && 1 < attr.values.length)
      (.schemaViolation ("attribute " ++ attr.id ++ " is single-valued"))
    refuseAny (badValue? checker? type attr.values) (.invalidAttributeSyntax attr.id)
    refuseIf (!asked.permits type)
      (.schemaViolation ("attribute " ++ attr.id ++ " is not allowed in " ++ dn.text))
    .ok type.oid

/-- Checks attributes in turn and returns the types that the entry has. -/
def checkAttributes (schema : Schema) (dn : Dn) (asked : Requirements) (attrs : List Attribute)
    (present : List Text) (checker? : Text → Option (Text → Bool) := ValueSyntax.checker?) :
    Except Error (List Text) :=
  match attrs with
  | [] => .ok present
  | attr :: rest => do
    let oid ← schema.checkAttribute dn asked present attr checker?
    schema.checkAttributes dn asked rest (oid :: present) checker?

/-- The primary names of the required types that an entry lacks, each once and in
ascending order.  A refusal may name any one of them; which one is left open. -/
def missingNames (schema : Schema) (must present : List Text) : List Text :=
  let missing := must.filter fun oid => !present.contains oid
  KeyTable.distinctTexts (missing.map fun oid =>
    ((schema.attributeType? oid).map AttributeType.primaryName).getD oid)

theorem missingNames_eq_nil_iff {schema : Schema} {must present : List Text} :
    schema.missingNames must present = [] ↔ ∀ oid ∈ must, oid ∈ present := by
  simp only [List.eq_nil_iff_forall_not_mem, missingNames, KeyTable.mem_distinctTexts,
    List.mem_map, List.mem_filter]
  constructor
  · intro none oid required
    apply Decidable.byContradiction
    intro absent
    exact none _ ⟨oid, ⟨required, by simpa using absent⟩, rfl⟩
  · rintro all name ⟨oid, ⟨required, absent⟩, _⟩
    simp [all oid required] at absent

/-- Everything that an entry holds for a type, under whichever of its designators. -/
def valuesOf (type : AttributeType) (entry : Entry) : List Text :=
  type.designators.flatMap entry.values

/-- The entry holds the value that names it. -/
def checkNaming (schema : Schema) (entry : Entry) : Except Error Unit :=
  match entry.dn.rdn? with
  | none => .ok ()
  | some rdn =>
    match schema.attributeType? rdn.attrType with
    | none => .error (.undefinedAttributeType rdn.attrType)
    | some type =>
      refuseIf (!(valuesOf type entry).any fun value => type.equality.equates value rdn.value)
        (.schemaViolation ("RDN value " ++ rdn.text ++ " is not present in the entry"))

/-- The first value of a delegation that names no server. -/
def unusableRef? (entry : Entry) : Option Text :=
  if entry.isReferral then
    (entry.values Entry.refAttribute).find? fun value => !(DelegationTarget.ofRef value).isOk
  else none

/-- Checks an entry.  The syntaxes have their own checkers unless others are given.  Where
several required attributes are missing, which of them is named is not determined: the
refusal here joins all their names by `|`, and its text stands for each answer that names
one of them. -/
def validate (schema : Schema) (entry : Entry)
    (checker? : Text → Option (Text → Bool) := ValueSyntax.checker?) : Except Error Unit := do
  refuseIf entry.objectClasses.isEmpty
    (.schemaViolation (entry.dn.text ++ " has no objectClass"))
  let classes ← schema.resolveClasses entry.objectClasses
  refuseIf (!classes.any fun cls => cls.kind == .structural)
    (.schemaViolation (entry.dn.text ++ " has no structural object class"))
  let asked ← schema.requirements classes
  let present ← schema.checkAttributes entry.dn asked entry.attributes.values [] checker?
  let missing := schema.missingNames asked.must present
  refuseIf (!missing.isEmpty) (.schemaViolation
    (entry.dn.text ++ " is missing required attribute " ++ joinWith '|' missing))
  schema.checkNaming entry
  refuseAny (unusableRef? entry) (.invalidAttributeSyntax Entry.refAttribute)

end Directory.Schema
