import Directory.Entry.Basic

namespace Directory

/-! # Modifications

A modify request is a list of changes to single attributes.  `Entry.apply` carries
them out in order and stops at the first that cannot be carried out; the entry it
returns then holds the work done so far. -/

inductive Modification.Kind where
  /-- Adds values that must be new. -/
  | add
  /-- Takes away values, or the whole attribute if none are listed. -/
  | remove
  /-- Sets the values; an empty list takes the attribute away. -/
  | replace
deriving DecidableEq, Repr

structure Modification where
  kind : Modification.Kind
  /-- The identifier of the attribute. -/
  id : Text
  values : List Text
deriving DecidableEq, Repr

namespace Entry

/-- The refusal to take away what is not there. -/
def lacks (entry : Entry) (id : Text) : Error :=
  .noSuchAttribute entry.dn.text id

/-- Adds values one by one until one is already there. -/
def addValues (id : Text) : List Text → Entry → Except Error Unit × Entry
  | [], entry => (.ok (), entry)
  | value :: rest, entry =>
    if entry.containsValue id value then (.error (.attributeOrValueExists id value), entry)
    else addValues id rest (entry.pushValue id value)

/-- Takes values away one by one until one is missing. -/
def removeValues (id : Text) : List Text → Entry → Except Error Unit × Entry
  | [], entry => (.ok (), entry)
  | value :: rest, entry =>
    let left := entry.removeValue id value
    if entry.containsValue id value then removeValues id rest left
    else (.error (entry.lacks id), left)

def applyOne (change : Modification) (entry : Entry) : Except Error Unit × Entry :=
  match change.kind with
  | .add => addValues change.id change.values entry
  | .remove =>
    if change.values.isEmpty then
      match entry.get? change.id with
      | none => (.error (entry.lacks change.id), entry)
      | some _ => (.ok (), entry.removeAttribute change.id)
    else removeValues change.id change.values entry
  | .replace => (.ok (), entry.put change.id change.values)

/-- Carries out changes in order up to the first refusal. -/
def apply : List Modification → Entry → Except Error Unit × Entry
  | [], entry => (.ok (), entry)
  | change :: rest, entry =>
    match entry.applyOne change with
    | (.ok (), changed) => apply rest changed
    | (.error refusal, changed) => (.error refusal, changed)

/-- The entry after all changes, if each of them can be carried out. -/
def modified (entry : Entry) (changes : List Modification) : Except Error Entry :=
  match entry.apply changes with
  | (.ok (), changed) => .ok changed
  | (.error refusal, _) => .error refusal

end Entry

/-- Whatever single operation the change comes down to keeps the property. -/
structure Modification.Keeps (change : Modification) (property : Entry → Prop) : Prop where
  pushValue : ∀ entry value, property entry → property (entry.pushValue change.id value)
  removeValue : ∀ entry value, property entry → property (entry.removeValue change.id value)
  removeAttribute : ∀ entry, property entry → property (entry.removeAttribute change.id)
  put : change.kind = .replace → ∀ entry, property entry →
    property (entry.put change.id change.values)

namespace Entry

variable {property : Entry → Prop} {entry after : Entry} {id : Text} {change : Modification}
  {changes : List Modification}

theorem addValues_induction
    (push : ∀ entry value, property entry → property (entry.pushValue id value))
    (values : List Text) (start : property entry) : property (addValues id values entry).2 := by
  induction values generalizing entry with
  | nil => exact start
  | cons value rest ih =>
    rw [addValues]
    split
    · exact start
    · exact ih (push entry value start)

theorem removeValues_induction
    (take : ∀ entry value, property entry → property (entry.removeValue id value))
    (values : List Text) (start : property entry) : property (removeValues id values entry).2 := by
  induction values generalizing entry with
  | nil => exact start
  | cons value rest ih =>
    simp only [removeValues]
    split
    · exact ih (take entry value start)
    · exact take entry value start

theorem applyOne_induction (keeps : change.Keeps property) (start : property entry) :
    property (entry.applyOne change).2 := by
  unfold applyOne
  cases kind : change.kind with
  | add => exact addValues_induction keeps.pushValue change.values start
  | replace => exact keeps.put kind entry start
  | remove =>
    simp only
    split
    · cases entry.get? change.id with
      | none => exact start
      | some attr => exact keeps.removeAttribute entry start
    · exact removeValues_induction keeps.removeValue change.values start

/-- What every change keeps holds after all of them, and where one is refused as well. -/
theorem apply_induction (keeps : ∀ change ∈ changes, change.Keeps property)
    (start : property entry) : property (entry.apply changes).2 := by
  induction changes generalizing entry with
  | nil => exact start
  | cons change rest ih =>
    obtain ⟨first, later⟩ := List.forall_mem_cons.mp keeps
    have changed := applyOne_induction first start
    rw [apply]
    cases outcome : entry.applyOne change with
    | mk answer next =>
      rw [outcome] at changed
      cases answer with
      | error refusal => exact changed
      | ok => exact ih later changed

theorem modified_induction (keeps : ∀ change ∈ changes, change.Keeps property)
    (start : property entry) (changed : entry.modified changes = .ok after) : property after := by
  have applied := apply_induction keeps start
  unfold modified at changed
  split at changed
  · next outcome =>
    cases changed
    rwa [outcome] at applied
  · contradiction

theorem keeps_dn (dn : Dn) (change : Modification) : change.Keeps fun entry => entry.dn = dn where
  pushValue entry value kept := (dn_pushValue entry change.id value).trans kept
  removeValue entry value kept := (dn_removeValue entry change.id value).trans kept
  removeAttribute entry kept := (dn_removeAttribute entry change.id).trans kept
  put _ entry kept := (dn_put entry change.id change.values).trans kept

theorem dn_of_modified (changed : entry.modified changes = .ok after) : after.dn = entry.dn :=
  modified_induction (fun change _ => keeps_dn entry.dn change) rfl changed

end Entry

end Directory
