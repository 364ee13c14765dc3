import Directory.Entry.Basic
import Directory.Json.Basic

namespace Directory

/-! # Entries as JSON

Entries are kept with the name as a text and the attributes under their keys; reading
takes keys and contents as they stand.  Settings list the values of an entry under its
attributes instead. -/

def readTexts (value : Json) : Option (List Text) := value.list? Json.text?

/-- Values by attribute; of a repeated attribute the last one counts. -/
def readValueTable (value : Json) : Option (KeyTable (List Text)) :=
  (value.members? readTexts).map KeyTable.ofList

def Attribute.toJson (attr : Attribute) : Json := .record [
  ("id", .text attr.id),
  ("values", .texts attr.values)]

def Entry.toJson (entry : Entry) : Json := .record [
  ("dn", .text entry.dn.text),
  ("attributes",
    .record (entry.attributes.bindings.map fun (key, attr) => (key, attr.toJson)))]

def Attribute.ofJson? (value : Json) : Option Attribute := do
  let fields ← value.record? ["id", "values"]
  some {
    id := ← fields.required "id" Json.text?
    values := ← fields.required "values" readTexts }

def Entry.ofJson? (value : Json) : Option Entry := do
  let fields ← value.record? ["dn", "attributes"]
  some {
    dn := ← (Dn.parse (← fields.required "dn" Json.text?)).toOption
    attributes := KeyTable.ofList
      (← fields.required "attributes" (Json.members? Attribute.ofJson?)) }

end Directory
