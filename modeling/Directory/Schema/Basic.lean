import Directory.Schema.Definition
import Directory.Schema.ValueSyntax

namespace Directory

open Text

/-! # Schemas

A schema holds the definitions that entries are checked against.  A definition is
found under each of its names and under its object identifier, in any ASCII letter
case and with blanks around it.  `Schema.build` admits a set of definitions only if no
two share a designator and if classes refer to definitions that are there. -/

structure Schema where
  attributeTypes : List AttributeType
  objectClasses : List ObjectClass
deriving DecidableEq, Repr

/-- Definitions that settings add to the core schema. -/
structure SchemaExtensions where
  attributeTypes : List AttributeType := []
  objectClasses : List ObjectClass := []
deriving DecidableEq, Repr

namespace Schema

/-- Whether a definition is filed under a key in small letters. -/
def isFiledUnder (key : Text) (designators : List Text) : Bool :=
  designators.any fun designator => asciiLower designator == key

/-- The key under which a definition is looked for. -/
def lookupKey (name : Text) : Text := name.trim.asciiLower

def attributeType? (schema : Schema) (name : Text) : Option AttributeType :=
  schema.attributeTypes.find? fun type => isFiledUnder (lookupKey name) type.designators

def objectClass? (schema : Schema) (name : Text) : Option ObjectClass :=
  schema.objectClasses.find? fun cls => isFiledUnder (lookupKey name) cls.designators

/-- The first designator whose small letters came up before it. -/
def repeated? (filed : List Text) : List Text → Option Text
  | [] => none
  | designator :: rest =>
    if filed.contains (asciiLower designator) then some designator
    else repeated? (asciiLower designator :: filed) rest

/-- What a class refers to and the schema lacks: a superior first, then an attribute
that its entries must or may have. -/
def danglingReference? (schema : Schema) (cls : ObjectClass) : Option Text :=
  let isClass (name : Text) : Bool :=
    schema.objectClasses.any fun known => isFiledUnder (asciiLower name) known.designators
  let isType (name : Text) : Bool :=
    schema.attributeTypes.any fun known => isFiledUnder (asciiLower name) known.designators
  match cls.superiors.find? fun name => !isClass name with
  | some name => some ("has unknown superior " ++ name)
  | none =>
    match (cls.must ++ cls.may).find? fun name => !isType name with
    | some name => some ("names unknown attribute type " ++ name)
    | none => none

/-- Admits definitions whose designators are distinct and whose references resolve. -/
def build (attributeTypes : List AttributeType) (objectClasses : List ObjectClass) :
    Except Error Schema := do
  refuseAny (repeated? [] (attributeTypes.flatMap AttributeType.designators)) fun name =>
    .configuration ("attribute type name " ++ name ++ " registered twice")
  refuseAny (repeated? [] (objectClasses.flatMap ObjectClass.designators)) fun name =>
    .configuration ("object class name " ++ name ++ " registered twice")
  let schema : Schema := ⟨attributeTypes, objectClasses⟩
  let dangling? := objectClasses.findSome? fun cls =>
    (schema.danglingReference? cls).map fun reference => (cls.primaryName, reference)
  refuseAny dangling? fun (name, reference) =>
    .configuration ("object class " ++ name ++ " " ++ reference)
  .ok schema

/-- Admits the definitions of settings together with those that every schema has. -/
def extended (base : Schema) (extensions : SchemaExtensions) : Except Error Schema :=
  build (base.attributeTypes ++ extensions.attributeTypes)
    (base.objectClasses ++ extensions.objectClasses)

def empty : Schema := ⟨[], []⟩

/-- Whether two values of an attribute are the same value. -/
def valuesMatch (schema : Schema) (name left right : Text) : Except Error Bool :=
  match schema.attributeType? name with
  | none => .error (.undefinedAttributeType name)
  | some type => .ok (type.equality.equates left right)

theorem mem_attributeTypes {schema : Schema} {name : Text} {type : AttributeType}
    (found : schema.attributeType? name = some type) : type ∈ schema.attributeTypes :=
  List.mem_of_find?_eq_some found

theorem mem_objectClasses {schema : Schema} {name : Text} {cls : ObjectClass}
    (found : schema.objectClass? name = some cls) : cls ∈ schema.objectClasses :=
  List.mem_of_find?_eq_some found

theorem extended_eq_ok {base schema : Schema} {extensions : SchemaExtensions}
    (built : base.extended extensions = .ok schema) :
    schema.attributeTypes = base.attributeTypes ++ extensions.attributeTypes ∧
      schema.objectClasses = base.objectClasses ++ extensions.objectClasses := by
  simp only [extended, build, bind_eq_ok_iff] at built
  obtain ⟨_, _, _, _, _, _, same⟩ := built
  cases same
  exact ⟨rfl, rfl⟩

end Schema

end Directory
