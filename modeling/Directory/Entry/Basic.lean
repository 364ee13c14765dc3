import Directory.KeyTable
import Directory.Url

namespace Directory

open Text

/-! # Entries

An entry is a name with attributes.  Attribute identifiers are found in any ASCII
letter case, each attribute keeps the spelling it was created with, and its values
keep the order in which they came.  Adding a value that is already there, up to
ASCII letter case, changes nothing. -/

structure Attribute where
  /-- The identifier as it was first given. -/
  id : Text
  values : List Text
deriving DecidableEq, Repr

/-- Whether one of the values is the given one up to ASCII letter case. -/
def Attribute.contains (attr : Attribute) (value : Text) : Bool :=
  attr.values.any fun held => sameIgnoringCase held value

structure Entry where
  dn : Dn
  /-- The attributes under their identifiers in small letters. -/
  attributes : KeyTable Attribute
deriving DecidableEq

namespace Entry

def empty (dn : Dn) : Entry := ⟨dn, .empty⟩

def get? (entry : Entry) (id : Text) : Option Attribute :=
  entry.attributes.get? (asciiLower id)

/-- The values of an attribute, none where the entry lacks it. -/
def values (entry : Entry) (id : Text) : List Text :=
  ((entry.get? id).map Attribute.values).getD []

def containsValue (entry : Entry) (id value : Text) : Bool :=
  ((entry.get? id).map (·.contains value)).getD false

/-- Appends a value unless the attribute has it, creating the attribute if needed. -/
def pushValue (entry : Entry) (id value : Text) : Entry :=
  let attr := (entry.get? id).getD ⟨id, []⟩
  let grown := if attr.contains value then attr else { attr with values := attr.values ++ [value] }
  { entry with attributes := entry.attributes.insert (asciiLower id) grown }

/-- Appends values in turn. -/
def pushValues (entry : Entry) (id : Text) (values : List Text) : Entry :=
  values.foldl (fun grown value => grown.pushValue id value) entry

def removeAttribute (entry : Entry) (id : Text) : Entry :=
  { entry with attributes := entry.attributes.erase (asciiLower id) }

/-- Sets all values of an attribute and its spelling; without values the attribute
goes. -/
def put (entry : Entry) (id : Text) (values : List Text) : Entry :=
  if values.isEmpty then entry.removeAttribute id
  else { entry with attributes := entry.attributes.insert (asciiLower id) ⟨id, values⟩ }

/-- Takes a value out.  An attribute that is left without values goes with it. -/
def removeValue (entry : Entry) (id value : Text) : Entry :=
  match entry.get? id with
  | none => entry
  | some attr =>
    let left := attr.values.filter fun held => !sameIgnoringCase held value
    if left.isEmpty then entry.removeAttribute id
    else
      { entry with
        attributes := entry.attributes.insert (asciiLower id) { attr with values := left } }

/-- An entry that holds the listed values, each attribute's in the order given. -/
def ofValues (dn : Dn) (attributes : List (Text × List Text)) : Entry :=
  attributes.foldl (fun entry (id, values) => entry.pushValues id values) (empty dn)

/-- The identifier of the attribute that lists the object classes of an entry. -/
def objectClass : Text := "objectclass"

/-- The object class of delegations. -/
def referralClass : Text := "referral"

/-- The attribute that holds the URLs of a delegation. -/
def refAttribute : Text := "ref"

def objectClasses (entry : Entry) : List Text := entry.values objectClass

def hasObjectClass (entry : Entry) (name : Text) : Bool :=
  entry.containsValue objectClass name

/-- Whether the entry hands its subtree over to other servers. -/
def isReferral (entry : Entry) : Bool := entry.hasObjectClass referralClass

/-- Where a delegation leads, in the order of its `ref` values; values that are no
URLs are passed over. -/
def delegationTargets (entry : Entry) : List DelegationTarget :=
  (entry.values refAttribute).filterMap fun value => (DelegationTarget.ofRef value).toOption

theorem values_of_get? {entry : Entry} {id : Text} {attr : Attribute}
    (found : entry.get? id = some attr) : entry.values id = attr.values := by
  rw [values, found, Option.map_some, Option.getD_some]

theorem get?_pushValue (entry : Entry) (id value other : Text) :
    (entry.pushValue id value).get? other =
      if asciiLower id = asciiLower other then
        let attr := (entry.get? id).getD ⟨id, []⟩
        some (if attr.contains value then attr else { attr with values := attr.values ++ [value] })
      else entry.get? other := by
  simp only [get?, pushValue, KeyTable.get?_insert]

theorem get?_removeAttribute (entry : Entry) (id other : Text) :
    (entry.removeAttribute id).get? other =
      if asciiLower id = asciiLower other then none else entry.get? other := by
  simp only [get?, removeAttribute, KeyTable.get?_erase]

theorem get?_put (entry : Entry) (id other : Text) (values : List Text) :
    (entry.put id values).get? other =
      if asciiLower id = asciiLower other then
        (if values.isEmpty then none else some ⟨id, values⟩)
      else entry.get? other := by
  by_cases absent : values.isEmpty
  · rw [put, if_pos absent, get?_removeAttribute, if_pos absent]
  · rw [put, if_neg absent, if_neg absent]
    simp only [get?, KeyTable.get?_insert]

@[simp] theorem dn_pushValue (entry : Entry) (id value : Text) :
    (entry.pushValue id value).dn = entry.dn := rfl

@[simp] theorem dn_removeAttribute (entry : Entry) (id : Text) :
    (entry.removeAttribute id).dn = entry.dn := rfl

@[simp] theorem dn_put (entry : Entry) (id : Text) (values : List Text) :
    (entry.put id values).dn = entry.dn := by
  unfold put; split <;> rfl

@[simp] theorem dn_removeValue (entry : Entry) (id value : Text) :
    (entry.removeValue id value).dn = entry.dn := by
  unfold removeValue
  split
  · rfl
  · dsimp only
    split <;> rfl

theorem dn_foldl {α : Type} {extend : Entry → α → Entry}
    (kept : ∀ entry part, (extend entry part).dn = entry.dn) (entry : Entry) (parts : List α) :
    (parts.foldl extend entry).dn = entry.dn := by
  induction parts generalizing entry with
  | nil => rfl
  | cons part rest ih => exact (ih _).trans (kept entry part)

theorem dn_pushValues (entry : Entry) (id : Text) (values : List Text) :
    (entry.pushValues id values).dn = entry.dn := by
  apply dn_foldl
  intro grown value
  rfl

theorem dn_ofValues (dn : Dn) (attributes : List (Text × List Text)) :
    (ofValues dn attributes).dn = dn := by
  refine dn_foldl ?_ (.empty dn) attributes
  intro entry pair
  exact entry.dn_pushValues pair.1 pair.2

end Entry

end Directory
