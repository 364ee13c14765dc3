import Directory.Proofs.Agent.Renames
import Directory.Proofs.Service.Stored

namespace Directory

open Text

/-! # Spelling of stored identifiers

Adding and modifying store an attribute under the primary name of its type as the schema spells
it.  A rename that has to create the attribute of the new step stores it under that name in small
letters instead, and a later change to the attribute keeps this spelling. -/

namespace Schema

variable {schema : Schema} {renamedTo : AttributeType → Prop} {id : Text}
  {known type : AttributeType}

/-- What identifiers are stored: canonical ones, and small forms of the primary names of types
that something was renamed to. -/
def IsGivenId (schema : Schema) (renamedTo : AttributeType → Prop) (id : Text) : Prop :=
  (∃ name, id = schema.canonicalId name) ∨
    ∃ type ∈ schema.attributeTypes, id = asciiLower type.primaryName ∧ renamedTo type

/-- How the attributes of an entry are identified, after something was renamed to some types. -/
structure Spells (schema : Schema) (renamedTo : AttributeType → Prop) (entry : Entry) : Prop where
  /-- The identifier is the primary name of a type, in small letters only if something was renamed
  to it.  Without blanks at its ends it is found to be of that type. -/
  spelled : ∀ key attr, entry.attributes.get? key = some attr →
    key = asciiLower attr.id ∧ (schema.attributeType? attr.id).isSome = true ∧
      ∃ type ∈ schema.attributeTypes,
        (attr.id = type.primaryName ∨ attr.id = asciiLower type.primaryName ∧ renamedTo type) ∧
          (attr.id.trim = attr.id → schema.attributeType? attr.id = some type)
  /-- No two attributes are of one type. -/
  apart : ∀ key other attr otherAttr, entry.attributes.get? key = some attr →
    entry.attributes.get? other = some otherAttr →
      schema.attributeType? attr.id = schema.attributeType? otherAttr.id → key = other

/-- Renaming the entry leaves the identifier of the new step's attribute as it is, and where it
has to create the attribute it does so in small letters. -/
def RenamesSmall (schema : Schema) (entry : Entry) : Prop :=
  ∀ given rdn type givenOld old target deleteOld, schema.normalizeRdn given = .ok rdn →
    schema.attributeType? given.attrType = some type → schema.normalizeRdn givenOld = .ok old →
      ∃ attr, (Agent.renamed entry target old (some rdn) deleteOld).get? type.primaryName =
          some attr ∧
        attr.id =
          ((entry.get? type.primaryName).map Attribute.id).getD (asciiLower type.primaryName)

theorem renamesSmall (schema : Schema) (entry : Entry) : schema.RenamesSmall entry := by
  intro given rdn type givenOld old target deleteOld normalized known oldNormalized
  obtain ⟨_, ofStep, rfl⟩ := normalizeRdn_eq_ok_iff.mp normalized
  obtain rfl := Option.some.inj (known.symm.trans ofStep)
  obtain ⟨oldType, _, rfl⟩ := normalizeRdn_eq_ok_iff.mp oldNormalized
  have lowered (name : Text) : asciiLower (asciiLower name) = asciiLower name :=
    asciiLower_asciiLower name
  have sameType (same : asciiLower (givenOld.withCanonicalType oldType.primaryName).normType =
      asciiLower (given.withCanonicalType type.primaryName).normType) :
      (givenOld.withCanonicalType oldType.primaryName).normType =
        (given.withCanonicalType type.primaryName).normType := by
    simpa only [Rdn.withCanonicalType, lowered] using same
  have created := Agent.exists_attribute_renamed entry target deleteOld sameType
  simpa only [Rdn.withCanonicalType, Entry.get?, lowered] using created

/-- A spelling of the primary name of a type leads to it unless it has blanks at its ends. -/
theorem attributeType?_of_asciiLower (distinct : schema.HasDistinctTypes)
    (member : type ∈ schema.attributeTypes) (same : asciiLower id = asciiLower type.primaryName)
    (trimmed : id.trim = id) : schema.attributeType? id = some type :=
  distinct.attributeType?_eq_some_iff.mpr ⟨member, type.primaryName, primaryName_mem type, by
    rw [lookupKey, trimmed, same]⟩

theorem IsGivenId.exists_type (given : schema.IsGivenId renamedTo id)
    (distinct : schema.HasDistinctTypes) (found : schema.attributeType? id = some known) :
    ∃ type ∈ schema.attributeTypes,
      (id = type.primaryName ∨ id = asciiLower type.primaryName ∧ renamedTo type) ∧
        (id.trim = id → schema.attributeType? id = some type) := by
  rcases given with ⟨name, canonical⟩ | ⟨type, member, lowered, renamed⟩
  · cases named : schema.attributeType? name with
    | none =>
      rw [canonicalId_of_unknown named] at canonical
      rw [canonical, named] at found
      contradiction
    | some type =>
      rw [canonicalId_of_type named] at canonical
      have member := mem_attributeTypes named
      exact ⟨type, member, .inl canonical,
        attributeType?_of_asciiLower distinct member (congrArg asciiLower canonical)⟩
  · refine ⟨type, member, .inr ⟨lowered, renamed⟩, attributeType?_of_asciiLower distinct member ?_⟩
    rw [lowered, asciiLower_asciiLower]

end Schema

namespace Service

/-- A caller asks to give an entry a naming step of the type. -/
def Event.RenamesTo (schema : Schema) (type : AttributeType) : Event → Prop
  | .call _ _ _ (.rename _ rdn _) | .call _ _ _ (.moveAndRename _ _ rdn _) =>
    ∃ step, Rdn.parse rdn = .ok step ∧ schema.attributeType? step.attrType = some type
  | _ => False

variable {config : Config} {service : Service} {start : NamingContexts}

/-- A naming step that reaches the agent was written by the caller. -/
theorem renamesTo_of_submission? {event : Event} {dn : Dn} {superior? : Option Dn} {given : Rdn}
    {deleteOld : Bool} {mode : ReferralMode} {schema : Schema} {type : AttributeType}
    (submitted : service.submission? event = some (.move dn superior? (some given) deleteOld, mode))
    (known : schema.attributeType? given.attrType = some type) : event.RenamesTo schema type := by
  cases event with
  | seed entry => simp [submission?] at submitted
  | call principal? mode? now command =>
    obtain ⟨request, read, becomes⟩ := becomes_of_submission? submitted
    cases becomes with
    | unchanged =>
      cases command with
      | rename text rdn deleteOld =>
        simp only [Command.request, bind_eq_ok_iff] at read
        obtain ⟨_, _, step, parsed, same⟩ := read
        cases same
        exact ⟨given, parsed, known⟩
      | moveAndRename text superior rdn deleteOld =>
        simp only [Command.request, bind_eq_ok_iff] at read
        obtain ⟨_, _, _, _, step, parsed, same⟩ := read
        cases same
        exact ⟨given, parsed, known⟩
      | _ => simp [Command.request, bind_eq_ok_iff] at read

theorem identifiedBy_after (started : ofConfig config = .ok (service, start))
    (events : List Event) :
    ∀ partition ∈ (service.after start events).partitions, ∀ entry ∈ partition.store.values,
      entry.IdentifiedBy (service.agent.schema.IsGivenId fun type =>
        ∃ event ∈ events, event.RenamesTo service.agent.schema type) := by
  refine entries_after started (fun entry origin same identified => ?_) ?_
  · rwa [Entry.IdentifiedBy, same.attributes]
  · intro event listed request mode submitted partition write prepared held entry
    refine prepared.identifiedBy_entry (fun name => .inl ⟨name, rfl⟩) ?_ held
    rintro dn superior? given deleteOld rdn rfl normalized
    obtain ⟨type, known, rfl⟩ := Schema.normalizeRdn_eq_ok_iff.mp normalized
    have renames := renamesTo_of_submission? submitted known
    rcases listed with ⟨seeded, rfl⟩ | called
    · contradiction
    · exact .inr ⟨type, Schema.mem_attributeTypes known, rfl, event, called, renames⟩

/-- After any run a stored attribute has the primary name of a type as its identifier, spelled as
in the schema, or in small letters if an event of the run renamed an entry to that type, and no two
attributes of an entry are of one type.  The small letters come from attributes that a renaming
had to create. -/
theorem identifiers_canonical_until_renamed (started : ofConfig config = .ok (service, start))
    (events : List Event) :
    ∀ partition ∈ (service.after start events).partitions, ∀ entry ∈ partition.store.values,
      service.agent.schema.Spells
        (fun type => ∃ event ∈ events, event.RenamesTo service.agent.schema type) entry ∧
      service.agent.schema.RenamesSmall entry := by
  intro partition listed entry held
  have distinct : service.agent.schema.HasDistinctTypes :=
    Schema.hasDistinctTypes_of_build (ofConfig_eq_ok started).1
  have reached := (Reachable.atStart started).after events
  have types : service.agent.schema.Types entry :=
    reached.types partition listed entry held
  refine ⟨⟨fun key attr found => ?spelled,
    fun key other attr otherAttr found otherFound same => ?apart⟩,
    service.agent.schema.renamesSmall entry⟩
  case spelled =>
    obtain ⟨keyed, given⟩ :=
      identifiedBy_after started events partition listed entry held key attr found
    obtain ⟨known, isKnown⟩ := types.known key attr found
    exact ⟨keyed, by rw [isKnown]; rfl, given.exists_type distinct isKnown⟩
  case apart =>
    obtain ⟨known, isKnown⟩ := types.known key attr found
    exact types.apart found otherFound isKnown (same ▸ isKnown)

/-- Aliases and capitals give way to primary names, in a rename as well if the attribute is
there. -/
theorem identifiers_canonical_until_renamed_aliases :
    ∃ (service : Service) (start : NamingContexts) (events : List Event),
      ofConfig (.single "p" "o=a"
        [("OBJECTCLASS", ["organization"]), ("organizationName", ["a"])]) = .ok (service, start) ∧
      ((service.after start events).partitions.flatMap fun partition =>
        partition.store.values.map fun entry => entry.attributes.values.map Attribute.id) =
          ([["o", "objectClass"], ["cn", "modifiersName", "modifyTimestamp", "objectClass", "sn",
            "telephoneNumber"]] : List (List Text)) ∧
      ∀ partition ∈ (service.after start events).partitions, ∀ entry ∈ partition.store.values,
        service.agent.schema.Spells
          (fun type => ∃ event ∈ events, event.RenamesTo service.agent.schema type) entry ∧
        service.agent.schema.RenamesSmall entry := by
  have run : (do
      let named ← Dn.parse "cn=c,o=a"
      let built ← ofConfig
        (.single "p" "o=a" [("OBJECTCLASS", ["organization"]), ("organizationName", ["a"])])
      let contexts := built.1.after built.2 [
        .seed (.ofValues named [("objectclass", ["person"]), ("CommonName", ["c"]),
          ("surname", ["s"])]),
        .call (some "o=a") none ⟨2024, 1, 1, 0, 0, 0⟩
          (.modify "cn=c,o=a" [⟨.add, "TELEPHONENUMBER", ["5"]⟩]),
        .call (some "o=a") none ⟨2024, 1, 1, 0, 0, 1⟩
          (.rename "cn=c,o=a" "telephoneNumber=5" false)]
      Except.ok (contexts.partitions.flatMap fun partition =>
        partition.store.values.map fun entry => entry.attributes.values.map Attribute.id)) =
          Except.ok (ε := Error) ([["o", "objectClass"], ["cn", "modifiersName",
            "modifyTimestamp", "objectClass", "sn", "telephoneNumber"]] : List (List Text)) := by
    decide +kernel
  obtain ⟨named, _, run⟩ := bind_eq_ok_iff.mp run
  obtain ⟨⟨service, start⟩, started, run⟩ := bind_eq_ok_iff.mp run
  exact ⟨service, start, _, started, Except.ok.inj run,
    identifiers_canonical_until_renamed started _⟩

/-- A person without a telephone number is renamed to one. -/
theorem rename_stores_small_identifier :
    ∃ (service : Service) (contexts : NamingContexts),
      Reachable (.single "p" "o=a" [("objectClass", ["organization"]), ("o", ["a"])]) service
        contexts ∧
      ∃ partition ∈ contexts.partitions, ∃ entry ∈ partition.store.values,
        ∃ attr ∈ entry.attributes.values, ∃ type,
          service.agent.schema.attributeType? attr.id = some type ∧ attr.id ≠ type.primaryName := by
  have run : (do
      let named ← Dn.parse "cn=c,o=a"
      let built ← ofConfig (.single "p" "o=a" [("objectClass", ["organization"]), ("o", ["a"])])
      let contexts := built.1.after built.2 [
        .seed (.ofValues named [("objectClass", ["person"]), ("cn", ["c"]), ("sn", ["s"])]),
        .call (some "o=a") none ⟨2024, 1, 1, 0, 0, 0⟩
          (.rename "cn=c,o=a" "telephoneNumber=5" false)]
      Except.ok (decide (∃ partition ∈ contexts.partitions, ∃ entry ∈ partition.store.values,
        ∃ attr ∈ entry.attributes.values,
          ((built.1.agent.schema.attributeType? attr.id).any fun type =>
            attr.id != type.primaryName) = true))) = Except.ok (ε := Error) true := by
    decide +kernel
  obtain ⟨named, _, run⟩ := bind_eq_ok_iff.mp run
  obtain ⟨⟨service, start⟩, started, run⟩ := bind_eq_ok_iff.mp run
  obtain ⟨partition, listed, entry, held, attr, stored, misspelt⟩ :=
    of_decide_eq_true (Except.ok.inj run)
  obtain ⟨type, known, other⟩ := (Option.any_eq_true _ _).mp misspelt
  exact ⟨service, _, (Reachable.atStart started).after _, partition, listed, entry, held, attr,
    stored, type, known, by simpa using other⟩

end Service

end Directory
