import Directory.Schema.Conformance

namespace Directory

/-! # Search filters

A filter is a condition on the attributes of an entry.  Attributes are found under all
their names and values are compared by the attribute's own rule; a condition on an
attribute that the schema does not know holds of no entry. -/

inductive Filter where
  /-- The entry has the attribute. -/
  | present (attr : Text)
  /-- The entry has the attribute with this value. -/
  | equal (attr value : Text)
  | and (filters : List Filter)
  | or (filters : List Filter)
  | not (filter : Filter)
deriving Repr

namespace Filter

/-- The condition that every entry of a schema meets. -/
def everything : Filter := present "objectClass"

/-- What an entry holds under the names of an attribute. -/
def valuesUnder (schema : Schema) (entry : Entry) (attr : Text) : List Text :=
  match schema.attributeType? attr with
  | none => []
  | some type => Schema.valuesOf type entry

mutual

/-- Whether an entry meets the condition. -/
def holds (schema : Schema) (entry : Entry) : Filter → Bool
  | present attr => !(valuesUnder schema entry attr).isEmpty
  | equal attr value =>
    match schema.attributeType? attr with
    | none => false
    | some type => (Schema.valuesOf type entry).any fun held => type.equality.equates held value
  | and filters => allHold schema entry filters
  | or filters => anyHolds schema entry filters
  | not filter => !holds schema entry filter

def allHold (schema : Schema) (entry : Entry) : List Filter → Bool
  | [] => true
  | filter :: rest => holds schema entry filter && allHold schema entry rest

def anyHolds (schema : Schema) (entry : Entry) : List Filter → Bool
  | [] => false
  | filter :: rest => holds schema entry filter || anyHolds schema entry rest

end

end Filter

end Directory
