import Directory.Proofs.Schema.Checks
import Directory.Proofs.Schema.ClassClosure
import Directory.Proofs.Text.Characters
import Directory.Schema.Core

namespace Directory

open Text

/-! # The class of delegations

An entry is a delegation to the referral engine if one of its declared classes is spelled
`referral`.  To the schema it is one if `referral` is among the classes that its declared
classes stand for.  The first implies the second.  The second goes further: an object
identifier, a name between blanks and a subclass stand for the class as well, and an entry
that has it only in these ways is served as data and keeps whatever URLs it holds. -/

namespace Schema

def delegationOid : Text := "2.16.840.1.113730.3.2.6"

def delegationClass : ObjectClass :=
  { oid := delegationOid, names := [Entry.referralClass], kind := .structural,
    superiors := ["top"], must := [Entry.refAttribute] }

/-- Whether the class is declared by an entry or is above a declared one. -/
def HasClass (schema : Schema) (entry : Entry) (cls : ObjectClass) : Prop :=
  ∃ declared ∈ entry.objectClasses, schema.Inherits declared cls

/-- The ways to declare the class of delegations without spelling it. -/
inductive DisguisesDelegation (schema : Schema) (declared : Text) : Prop where
  | designated (unspelled : sameIgnoringCase declared Entry.referralClass = false)
      (key : lookupKey declared = Entry.referralClass ∨ lookupKey declared = delegationOid)
  | inherited {cls : ObjectClass} {superior : Text}
      (known : schema.objectClass? declared = some cls) (listed : superior ∈ cls.superiors)
      (inherits : schema.Inherits superior delegationClass)

variable {schema : Schema} {extensions : SchemaExtensions} {entry : Entry} {declared name : Text}

theorem objectClass?_extended (built : core.extended extensions = .ok schema) (name : Text) :
    schema.objectClass? name = (core.objectClass? name).or
      (extensions.objectClasses.find? fun cls =>
        isFiledUnder (lookupKey name) cls.designators) := by
  rw [objectClass?, (extended_eq_ok built).2, List.find?_append]
  rfl

theorem core_objectClass?_delegation
    (key : lookupKey name = Entry.referralClass ∨ lookupKey name = delegationOid) :
    core.objectClass? name = some delegationClass := by
  rw [objectClass?]
  rcases key with key | key <;> rw [key] <;> decide +kernel

theorem objectClass?_eq_delegationClass_iff (built : core.extended extensions = .ok schema) :
    schema.objectClass? name = some delegationClass ↔
      lookupKey name = Entry.referralClass ∨ lookupKey name = delegationOid := by
  constructor
  · intro known
    have filed : isFiledUnder (lookupKey name) delegationClass.designators = true :=
      List.find?_some (p := fun cls : ObjectClass => isFiledUnder (lookupKey name) cls.designators)
        known
    obtain ⟨designator, listed, lower⟩ := List.any_eq_true.mp filed
    rw [beq_iff_eq] at lower
    rcases List.mem_append.mp listed with listed | listed
    · rw [← lower, List.mem_singleton.mp listed]
      exact .inl (by decide +kernel)
    · rw [← lower, List.mem_singleton.mp listed]
      exact .inr (by decide +kernel)
  · intro key
    rw [objectClass?_extended built, core_objectClass?_delegation key, Option.some_or]

theorem lookupKey_of_sameIgnoringCase
    (spelled : sameIgnoringCase declared Entry.referralClass = true) :
    lookupKey declared = Entry.referralClass := by
  have lower : asciiLower declared = Entry.referralClass := by
    rw [sameIgnoringCase_iff.mp spelled]
    decide +kernel
  have solid : ∀ c ∈ declared, isBlank c = false := by
    intro c member
    by_contra blank
    have letterless := isAlpha_of_isBlank (Bool.not_eq_false _ ▸ blank)
    have inside : c ∈ Entry.referralClass := lower ▸ (mem_asciiLower_iff letterless).mpr member
    have letters : Entry.referralClass.all Char.isAlpha = true := by decide +kernel
    simp [List.all_eq_true.mp letters c inside] at letterless
  rw [lookupKey, trim_eq_self solid, lower]

theorem isReferral_iff : entry.isReferral = true ↔
    ∃ declared ∈ entry.objectClasses, sameIgnoringCase declared Entry.referralClass = true := by
  rw [Entry.isReferral, Entry.hasObjectClass, Entry.containsValue, Entry.objectClasses,
    Entry.values]
  cases entry.get? Entry.objectClass with
  | none => simp
  | some attr => simp [Attribute.contains]

theorem hasClass_delegationClass_iff (built : core.extended extensions = .ok schema) :
    schema.HasClass entry delegationClass ↔ entry.isReferral = true ∨
      ∃ declared ∈ entry.objectClasses, schema.DisguisesDelegation declared := by
  constructor
  · intro has
    obtain ⟨declared, listed, inherits⟩ := has
    cases inherits with
    | itself known =>
      have key := (objectClass?_eq_delegationClass_iff built).mp known
      cases spelled : sameIgnoringCase declared Entry.referralClass with
      | true => exact .inl (isReferral_iff.mpr ⟨declared, listed, spelled⟩)
      | false => exact .inr ⟨declared, listed, .designated spelled key⟩
    | superior known above inherits =>
      exact .inr ⟨declared, listed, .inherited known above inherits⟩
  · intro either
    rcases either with referral | ⟨declared, listed, disguise⟩
    · obtain ⟨declared, listed, spelled⟩ := isReferral_iff.mp referral
      have key := lookupKey_of_sameIgnoringCase spelled
      exact ⟨declared, listed,
        .itself ((objectClass?_eq_delegationClass_iff built).mpr (.inl key))⟩
    · refine ⟨declared, listed, ?_⟩
      cases disguise with
      | designated _ key => exact .itself ((objectClass?_eq_delegationClass_iff built).mpr key)
      | inherited known above inherits => exact .superior known above inherits

theorem resolveClasses_of_validate (accepted : schema.validate entry = .ok ()) :
    ∃ classes, schema.resolveClasses entry.objectClasses = .ok classes := by
  obtain ⟨_, classes, resolved, _⟩ := validate_eq_ok_iff_steps.mp accepted
  exact ⟨classes, resolved⟩

/-- Only where the engine sees a delegation are its URLs looked at. -/
theorem usable_of_validate (accepted : schema.validate entry = .ok ())
    (referral : entry.isReferral = true) {value : Text}
    (held : value ∈ entry.values Entry.refAttribute) :
    (DelegationTarget.ofRef value).isOk = true := by
  obtain ⟨_, _, _, _, _, _, _, _, _, _, usable⟩ := validate_eq_ok_iff_steps.mp accepted
  rw [unusableRef?, if_pos referral, List.find?_eq_none] at usable
  simpa using usable value held

/-- For an accepted entry over an extended core schema, the resolved classes are exactly those
it has; one that the engine takes for a delegation has the class and holds usable URLs; and the
engine and the schema agree exactly if the name is spelled or nothing else stands for it. -/
theorem isReferral_agrees_iff (built : core.extended extensions = .ok schema)
    (accepted : schema.validate entry = .ok ()) :
    (∃ classes, schema.resolveClasses entry.objectClasses = .ok classes ∧
        ∀ cls, cls ∈ classes ↔ schema.HasClass entry cls) ∧
      (entry.isReferral = true → schema.HasClass entry delegationClass ∧
        ∀ value ∈ entry.values Entry.refAttribute, (DelegationTarget.ofRef value).isOk = true) ∧
      ((entry.isReferral = true ↔ schema.HasClass entry delegationClass) ↔
        entry.isReferral = true ∨
          ∀ declared ∈ entry.objectClasses, ¬ schema.DisguisesDelegation declared) := by
  have divided : schema.HasClass entry delegationClass ↔ _ := hasClass_delegationClass_iff built
  refine ⟨?_, fun referral => ⟨divided.mpr (.inl referral), ?_⟩, ?_⟩
  · obtain ⟨classes, resolved⟩ := resolveClasses_of_validate accepted
    exact ⟨classes, resolved,
      fun cls => mem_resolveClasses_iff (hasDistinctClasses_of_build built) resolved⟩
  · exact fun value held => usable_of_validate accepted referral held
  · rw [divided]
    grind

/-- A delegation in capitals. -/
theorem isReferral_agrees_iff_spelled :
    ∃ (schema : Schema) (dn : Dn) (entry : Entry),
      core.extended {} = .ok schema ∧ Dn.parse "ou=t,o=a" = .ok dn ∧
      Entry.ofValues dn [("objectClass", ["REFERRAL", "extensibleObject"]), ("ou", ["t"]),
        ("ref", ["ldap://h/ou=t,o=b"])] = entry ∧
      schema.validate entry = .ok () ∧ entry.isReferral = true ∧
      (∃ classes, schema.resolveClasses entry.objectClasses = .ok classes ∧
        ∀ cls, cls ∈ classes ↔ schema.HasClass entry cls) ∧
      (schema.HasClass entry delegationClass ∧
        ∀ value ∈ entry.values Entry.refAttribute, (DelegationTarget.ofRef value).isOk = true) ∧
      (entry.isReferral = true ↔ schema.HasClass entry delegationClass) := by
  have run : (do
      let schema ← core.extended {}
      let dn ← Dn.parse "ou=t,o=a"
      let entry := Entry.ofValues dn [("objectClass", ["REFERRAL", "extensibleObject"]),
        ("ou", ["t"]), ("ref", ["ldap://h/ou=t,o=b"])]
      schema.validate entry
      Except.ok entry.isReferral) = Except.ok (ε := Error) true := by
    decide +kernel
  obtain ⟨schema, built, run⟩ := bind_eq_ok_iff.mp run
  obtain ⟨dn, read, run⟩ := bind_eq_ok_iff.mp run
  obtain ⟨_, accepted, run⟩ := bind_eq_ok_iff.mp run
  have referral := Except.ok.inj run
  obtain ⟨resolved, implied, agrees⟩ := isReferral_agrees_iff built accepted
  exact ⟨schema, dn, _, built, read, rfl, accepted, referral, resolved, implied referral,
    agrees.mpr (.inl referral)⟩

/-- A delegation by its object identifier, with a URL that names no server. -/
theorem delegation_served_as_data :
    ∃ (schema : Schema) (dn : Dn) (entry : Entry),
      core.extended {} = .ok schema ∧ Dn.parse "ou=t,o=a" = .ok dn ∧
      Entry.ofValues dn [("objectClass", [delegationOid, "extensibleObject"]), ("ou", ["t"]),
        ("ref", ["h"])] = entry ∧
      schema.validate entry = .ok () ∧ schema.HasClass entry delegationClass ∧
      entry.isReferral = false ∧
      ∃ value ∈ entry.values Entry.refAttribute, (DelegationTarget.ofRef value).isOk = false := by
  have run : (do
      let schema ← core.extended {}
      let dn ← Dn.parse "ou=t,o=a"
      let entry := Entry.ofValues dn [("objectClass", [delegationOid, "extensibleObject"]),
        ("ou", ["t"]), ("ref", ["h"])]
      schema.validate entry
      Except.ok (decide (delegationOid ∈ entry.objectClasses ∧ entry.isReferral = false ∧
        ∃ value ∈ entry.values Entry.refAttribute,
          (DelegationTarget.ofRef value).isOk = false))) = Except.ok (ε := Error) true := by
    decide +kernel
  obtain ⟨schema, built, run⟩ := bind_eq_ok_iff.mp run
  obtain ⟨dn, read, run⟩ := bind_eq_ok_iff.mp run
  obtain ⟨_, accepted, run⟩ := bind_eq_ok_iff.mp run
  obtain ⟨listed, unseen, unusable⟩ := of_decide_eq_true (Except.ok.inj run)
  have known : schema.objectClass? delegationOid = some delegationClass :=
    (objectClass?_eq_delegationClass_iff built).mpr (.inr (by decide +kernel))
  exact ⟨schema, dn, _, built, read, rfl, accepted, ⟨delegationOid, listed, .itself known⟩,
    unseen, unusable⟩

end Schema

end Directory
