import Directory.Text.Digits

namespace Directory

/-! # JSON documents

The data form of settings, stored entries and reports.  Numbers keep their written
form, since nothing here computes with them.  Members keep their order and their
repetitions: whether a repeated name is a fault depends on who reads the object.

A record is a value with named fields.  It is written as an object, whose unknown
members are passed over and which may not bind a field twice, or as an array with
the fields in their order, where fields at the end may be left out. -/

/-- A JSON value.  A text is `none` when its escapes name half of a surrogate pair:
the document is well formed, but there is no Unicode text to hand on. -/
inductive Json where
  | null
  | bool (value : Bool)
  | number (written : Text)
  | string (text : Option Text)
  | array (items : List Json)
  | object (members : List (Option Text × Json))
deriving Inhabited

namespace Json

def text (value : Text) : Json := .string (some value)

def nat (value : Nat) : Json := .number (Text.natDigits value)

def texts (values : List Text) : Json := .array (values.map text)

/-- An object with the given names. -/
def record (members : List (Text × Json)) : Json :=
  .object (members.map fun (name, value) => (some name, value))

def text? : Json → Option Text
  | .string text => text
  | _ => none

def bool? : Json → Option Bool
  | .bool value => some value
  | _ => none

def items? : Json → Option (List Json)
  | .array items => some items
  | _ => none

def isNull : Json → Bool
  | .null => true
  | _ => false

/-- The items of an array, each of which must be readable. -/
def list? (read : Json → Option α) (value : Json) : Option (List α) := do
  (← value.items?).mapM read

/-- Nothing for `null`, otherwise what is read. -/
def nullable? (read : Json → Option α) : Json → Option (Option α)
  | .null => some none
  | value => (read value).map some

/-- The members of an object in order, each of which must have a name and be
readable. -/
def members? (read : Json → Option α) : Json → Option (List (Text × α))
  | .object members => members.mapM fun (name, value) => do some (← name, ← read value)
  | _ => none

/-- The last member with a name. -/
def member? (value : Json) (name : Text) : Option Json :=
  match value with
  | .object members =>
    (members.reverse.find? fun (bound, _) => bound == some name).map Prod.snd
  | _ => none

/-- A value that stands for one of a few constants: its name, or an object that
binds only that name, to `null`. -/
def choice? (choices : List (Text × α)) : Json → Option α
  | .string (some name) => choices.lookup name
  | .object [(some name, .null)] => choices.lookup name
  | _ => none

/-- The fields that a value binds. -/
structure Record where
  bound : List (Text × Json)

/-- Reads a value as a record with the given fields. -/
def record? (fields : List Text) : Json → Option Record
  | .object members => do
    let members ← members.mapM fun (name, value) => do some (← name, value)
    let known := members.filter fun (name, _) => fields.contains name
    if (known.map Prod.fst).eraseDups.length = known.length then some ⟨known⟩ else none
  | .array items => if items.length ≤ fields.length then some ⟨fields.zip items⟩ else none
  | _ => none

/-- A field that must be there. -/
def Record.required (record : Record) (field : Text) (read : Json → Option α) : Option α := do
  read (← record.bound.lookup field)

/-- A field with a value for when it is left out. -/
def Record.optional (record : Record) (field : Text) (read : Json → Option α)
    (absent : α) : Option α :=
  match record.bound.lookup field with
  | none => some absent
  | some value => read value

end Json

end Directory
