import Directory.Proofs.Schema.SingleValues
import Directory.Proofs.Schema.Syntaxes
import Directory.Proofs.Service.AddedValues

namespace Directory

open Text

/-! # Stamps

A service that sets stamps says itself who wrote an entry and when.  A request may list values for
the stamps under any of their names; they give way to those of the service, or the request is
refused. -/

/-- The type of a stamp. -/
def AttributeType.stamp (oid name : Text) (content : ValueSyntax) (equality : MatchingRule) :
    AttributeType :=
  { oid, names := [name], syntaxOid := content.oid, equality, singleValue := true,
    usage := .directoryOperation }

namespace Schema

variable {schema : Schema} {extensions : SchemaExtensions} {entry : Entry} {type : AttributeType}
  {name value : Text}

theorem namesSingle_stamp (built : core.extended extensions = .ok schema) {oid : Text}
    {content : ValueSyntax} {equality : MatchingRule}
    (known : core.attributeType? name = some (.stamp oid name content equality)) :
    schema.NamesSingle name (.stamp oid name content equality) :=
  ⟨attributeType?_of_extended built known, rfl, rfl⟩

theorem NamesSingle.canonicalChange_eq (named : schema.NamesSingle name type)
    (kind : Modification.Kind) (values : List Text) :
    schema.canonicalChange ⟨kind, name, values⟩ = ⟨kind, name, values⟩ := by
  rw [canonicalChange, canonicalId_of_type named.known, named.primary]

theorem NamesSingle.mem_valuesOf (named : schema.NamesSingle name type)
    (held : value ∈ entry.values name) : value ∈ valuesOf type entry :=
  List.mem_flatMap.mpr ⟨name, named.primary ▸ primaryName_mem type, held⟩

end Schema

namespace Agent

variable {agent : Agent} {contexts after : NamingContexts} {mode : ReferralMode}
  {response : Response}

/-- What an added entry gives for a type that allows one value is kept as the only one, up to letter
case. -/
theorem holdsOnly_of_add {entry : Entry} (distinct : contexts.HasDistinctIds)
    (separated : contexts.IsSeparated) (distinctTypes : agent.schema.HasDistinctTypes)
    (added : agent.answer contexts (.add entry) mode = (.ok response, after)) :
    ∃ dn partition stored, agent.Finds after entry.dn dn partition stored ∧
      ∀ name type value, agent.schema.NamesSingle name type →
        entry.get? name = some ⟨name, [value]⟩ →
        ∃ held, agent.schema.HoldsOnly stored name held ∧ sameIgnoringCase held value = true ∧
          ∀ accepts, ValueSyntax.checker? type.syntaxOid = some accepts →
            accepts held = true := by
  obtain ⟨dn, partition, stored, finds, canonical, accepted⟩ :=
    exists_stored_of_add distinct separated added
  refine ⟨dn, partition, stored, finds, fun name type value named isGiven => ?_⟩
  have identified : stored.IdentifiedBy agent.schema.IsCanonicalId := by
    rw [Entry.IdentifiedBy, canonical]
    exact agent.schema.identifiedBy_normalizeEntry
      fun attr _ => agent.schema.isCanonicalId_canonicalId attr.id
  have values := Schema.valuesOf_eq_eraseDupsBy canonical accepted distinctTypes
    (Schema.mem_attributeTypes named.known)
  obtain ⟨held, isHeld, same⟩ := exists_mem_eraseDupsBy _ (Schema.mem_valuesGiven_iff.mpr
    ⟨_, KeyTable.mem_values_iff.mpr ⟨_, isGiven⟩, named.known, List.mem_singleton_self value⟩)
  rw [← values] at isHeld
  obtain ⟨only, checked⟩ := named.holdsOnly distinctTypes accepted identified isHeld
  exact ⟨held, only, same, checked⟩

theorem exists_stored_of_modify {given : Dn} {changes : List Modification}
    (distinct : contexts.HasDistinctIds) (separated : contexts.IsSeparated)
    (filed : ∀ partition ∈ contexts.partitions, partition.store.IsFiled partition.suffix)
    (modified : agent.answer contexts (.modify given changes) mode = (.ok response, after)) :
    ∃ dn source partition before stored, source ∈ contexts.partitions ∧
      before ∈ source.store.values ∧
      before.modified (changes.map agent.schema.canonicalChange) = .ok stored ∧
      agent.schema.validate stored = .ok () ∧ agent.Finds after given dn partition stored := by
  cases isPlanned : agent.planModify contexts given changes mode with
  | error refusal =>
    rw [answer, isPlanned] at modified
    cases modified
  | ok plan =>
    have planned := isPlanned
    simp only [planModify, bind_eq_ok_iff] at planned
    obtain ⟨dn, normalized, source, covered, _, _, before, found, stored, changed, _, accepted,
      same⟩ := planned
    cases same
    rw [answer, isPlanned] at modified
    obtain ⟨member, owned⟩ := NamingContexts.mem_of_resolve? (covering_eq_ok_iff.mp covered)
    have bound := existing_eq_ok_iff.mp found
    obtain ⟨_, carried, _⟩ := map_eq_ok_iff.mp (congrArg Prod.fst modified)
    have performed := NamingContexts.performs_of_perform distinct member carried
    have isAfter : (contexts.perform source.id (.update stored)).2 = after :=
      congrArg Prod.snd modified
    rw [isAfter] at performed
    have placed : Store.find? (source.store.put stored) dn = some stored := by
      rw [Store.find?_put, if_pos]
      rw [Entry.dn_of_modified changed, ← (filed source member _ before bound).keyed]
    exact ⟨dn, source, _, before, stored, member, KeyTable.mem_values_iff.mpr ⟨_, bound⟩, changed,
      accepted, normalized, performed.resolve?_eq distinct separated owned, placed⟩

end Agent

namespace Service

variable {config : Config} {service : Service} {contexts after : NamingContexts} {now : Instant}
  {mode : ReferralMode} {principal name : Dn} {given : Entry} {changes : List Modification}
  {response : Response}

/-- An added entry has been created by the caller, up to letter case, at this very time. -/
theorem stamps_of_add (reached : Reachable config service contexts)
    (stamping : config.operationalAttributes = true)
    (added : (service.execute now contexts ⟨.add given, mode, some principal⟩).1 =
      (.ok response, after)) :
    ∃ dn partition stored creator, service.agent.Finds after given.dn dn partition stored ∧
      service.agent.schema.HoldsOnly stored "createTimestamp" now.generalizedTime ∧
      service.agent.schema.HoldsOnly stored "creatorsName" creator ∧
      sameIgnoringCase creator principal.text = true := by
  have dates : service.agent.schema.NamesSingle "createTimestamp"
      (.stamp "2.5.18.1" "createTimestamp" .generalizedTime .caseIgnore) :=
    Schema.namesSingle_stamp reached.built (by decide +kernel)
  have signs : service.agent.schema.NamesSingle "creatorsName"
      (.stamp "2.5.18.3" "creatorsName" .distinguishedName .distinguishedName) :=
    Schema.namesSingle_stamp reached.built (by decide +kernel)
  obtain ⟨start, _, started, _⟩ := id reached
  obtain ⟨_, answered⟩ := exists_answer_of_execute started added
  rw [stamping, if_pos rfl] at answered
  obtain ⟨dn, partition, stored, finds, holds⟩ := Agent.holdsOnly_of_add reached.hasDistinctIds
    reached.isSeparated reached.hasDistinctTypes answered
  rw [Entry.dn_put, Entry.dn_put] at finds
  obtain ⟨time, dated, sameTime, checked⟩ := holds _ _ now.generalizedTime dates
    (by rw [Entry.get?_put, if_neg (by decide +kernel), Entry.get?_put, if_pos rfl]; rfl)
  obtain ⟨creator, signed, sameName, _⟩ := holds _ _ principal.text signs
    (by rw [Entry.get?_put, if_pos rfl]; rfl)
  have exactly := eq_of_sameIgnoringCase (ValueSyntax.isLower_of_accepted (checked _ rfl))
    now.isLower_generalizedTime sameTime
  exact ⟨dn, partition, stored, creator, finds, exactly ▸ dated, signed, sameName⟩

/-- A modified entry has been modified by the caller at this very time. -/
theorem stamps_of_modify (reached : Reachable config service contexts)
    (stamping : config.operationalAttributes = true)
    (modified : (service.execute now contexts ⟨.modify name changes, mode, some principal⟩).1 =
      (.ok response, after)) :
    ∃ dn partition stored, service.agent.Finds after name dn partition stored ∧
      service.agent.schema.HoldsOnly stored "modifyTimestamp" now.generalizedTime ∧
      service.agent.schema.HoldsOnly stored "modifiersName" principal.text := by
  obtain ⟨start, _, started, _⟩ := id reached
  obtain ⟨_, answered⟩ := exists_answer_of_execute started modified
  rw [stamping, if_pos rfl] at answered
  obtain ⟨dn, source, partition, before, stored, listed, held, changed, accepted, finds⟩ :=
    Agent.exists_stored_of_modify reached.hasDistinctIds reached.isSeparated
      (fun partition listed => (reached.isFiled partition listed).2) answered
  have identified : stored.IdentifiedBy service.agent.schema.IsCanonicalId := by
    refine (reached.identifiedBy source listed before held).modified ?_ changed
    intro change isChange
    obtain ⟨written, _, rfl⟩ := List.mem_map.mp isChange
    exact service.agent.schema.isCanonicalId_canonicalId written.id
  have dates : service.agent.schema.NamesSingle "modifyTimestamp"
      (.stamp "2.5.18.2" "modifyTimestamp" .generalizedTime .caseIgnore) :=
    Schema.namesSingle_stamp reached.built (by decide +kernel)
  have signs : service.agent.schema.NamesSingle "modifiersName"
      (.stamp "2.5.18.4" "modifiersName" .distinguishedName .distinguishedName) :=
    Schema.namesSingle_stamp reached.built (by decide +kernel)
  rw [List.map_append, List.map_singleton, signs.canonicalChange_eq,
    Entry.modified_concat_replace_eq_ok_iff] at changed
  obtain ⟨dated, changed, rfl⟩ := changed
  rw [List.map_append, List.map_singleton, dates.canonicalChange_eq,
    Entry.modified_concat_replace_eq_ok_iff] at changed
  obtain ⟨earlier, _, rfl⟩ := changed
  refine ⟨dn, partition, _, finds,
    (dates.holdsOnly reached.hasDistinctTypes accepted identified (dates.mem_valuesOf ?_)).1,
    (signs.holdsOnly reached.hasDistinctTypes accepted identified (signs.mem_valuesOf ?_)).1⟩
  · rw [Entry.values_put, if_neg (by decide +kernel), Entry.values_put, if_pos rfl]
    exact List.mem_singleton_self _
  · rw [Entry.values_put, if_pos rfl]
    exact List.mem_singleton_self _

/-- Of an entry that a session added or modified with success, the stamps say when that was and who
the caller is, and they say nothing else, whatever the request listed for them. -/
theorem stamps_follow_caller (reached : Reachable config service contexts)
    (stamping : config.operationalAttributes = true) {session : Session}
    (caller : session.principal? = some principal) (now : Instant) :
    (∀ given response after,
      service.run session now contexts (.add given) = (.ok response, after) →
      ∃ dn partition stored creator, service.agent.Finds after given.dn dn partition stored ∧
        service.agent.schema.HoldsOnly stored "createTimestamp" now.generalizedTime ∧
        service.agent.schema.HoldsOnly stored "creatorsName" creator ∧
        sameIgnoringCase creator principal.text = true) ∧
    ∀ text changes response after,
      service.run session now contexts (.modify text changes) = (.ok response, after) →
      ∃ given dn partition stored, Dn.parse text = .ok given ∧
        service.agent.Finds after given dn partition stored ∧
        service.agent.schema.HoldsOnly stored "modifyTimestamp" now.generalizedTime ∧
        service.agent.schema.HoldsOnly stored "modifiersName" principal.text := by
  constructor
  · intro given response after added
    have executed : (service.execute now contexts ⟨.add given, session.mode, some principal⟩).1 =
        (.ok response, after) := caller ▸ added
    exact stamps_of_add reached stamping executed
  · intro text changes response after modified
    cases read : Dn.parse text with
    | error refusal =>
      simp only [run, Command.request, read] at modified
      cases modified
    | ok given =>
      have executed : (service.execute now contexts
          ⟨.modify given changes, session.mode, some principal⟩).1 = (.ok response, after) := by
        rw [← modified, run, Command.request, read, ← caller]
        rfl
      obtain ⟨dn, partition, stored, stamps⟩ := stamps_of_modify reached stamping executed
      exact ⟨given, dn, partition, stored, rfl, stamps⟩

/-- A unit is added with other stamps, under the numbers of their types and under a key that is none
of theirs, and its superior is modified together with its stamps. -/
theorem stamps_follow_caller_forged :
    ∃ (config : Config) (service : Service) (contexts added modified : NamingContexts)
      (session : Session) (principal name : Dn) (given : Entry) (changes : List Modification)
      (now : Instant),
      Reachable config service contexts ∧ config.operationalAttributes = true ∧
      session.principal? = some principal ∧ Dn.parse "o=a" = .ok name ∧
      service.run session now contexts (.add given) = (.ok .done, added) ∧
      service.run session now contexts (.modify "o=a" changes) = (.ok .done, modified) ∧
      given.attributes.get? "2.5.18.3" = some ⟨"2.5.18.3", ["UID=root"]⟩ ∧
      given.attributes.get? "key" = some ⟨"createTimestamp", ["20240101000000Z"]⟩ ∧
      changes = [⟨.add, "2.5.18.2", ["19990101000000Z"]⟩,
        ⟨.replace, "modifiersname", ["uid=other"]⟩] ∧
      (∃ dn partition stored creator, service.agent.Finds added given.dn dn partition stored ∧
        service.agent.schema.HoldsOnly stored "createTimestamp" "20240101000000Z" ∧
        service.agent.schema.HoldsOnly stored "creatorsName" creator ∧
        sameIgnoringCase creator "uid=root" = true) ∧
      ∃ dn partition stored, service.agent.Finds modified name dn partition stored ∧
        service.agent.schema.HoldsOnly stored "modifyTimestamp" "20240101000000Z" ∧
        service.agent.schema.HoldsOnly stored "modifiersName" "uid=root" := by
  let config := Config.single "p" "o=a" [("objectClass", ["organization"]), ("o", ["a"])]
  let now : Instant := ⟨2024, 1, 1, 0, 0, 0⟩
  let changes : List Modification :=
    [⟨.add, "2.5.18.2", ["19990101000000Z"]⟩, ⟨.replace, "modifiersname", ["uid=other"]⟩]
  have run : (do
      let principal ← Dn.parse "uid=root"
      let name ← Dn.parse "o=a"
      let dn ← Dn.parse "ou=b,o=a"
      let built ← ofConfig config
      let session : Session := ⟨.throw, some principal⟩
      let plain := Entry.ofValues dn [("objectClass", ["organizationalUnit"]), ("ou", ["b"]),
        ("2.5.18.3", ["UID=root"])]
      let given : Entry :=
        ⟨dn, plain.attributes.insert "key" ⟨"createTimestamp", ["20240101000000Z"]⟩⟩
      Except.ok (decide (principal.text = ofLiteral "uid=root" ∧
        (built.1.run session now built.2 (.add given)).1 = .ok .done ∧
        (built.1.run session now built.2 (.modify "o=a" changes)).1 = .ok .done ∧
        given.attributes.get? "2.5.18.3" = some ⟨"2.5.18.3", ["UID=root"]⟩ ∧
        given.attributes.get? "key" = some ⟨"createTimestamp", ["20240101000000Z"]⟩))) =
        Except.ok (ε := Error) true := by
    decide +kernel
  obtain ⟨principal, _, run⟩ := bind_eq_ok_iff.mp run
  obtain ⟨name, named, run⟩ := bind_eq_ok_iff.mp run
  obtain ⟨dn, _, run⟩ := bind_eq_ok_iff.mp run
  obtain ⟨⟨service, start⟩, started, run⟩ := bind_eq_ok_iff.mp run
  obtain ⟨written, added, modified, numbered, keyed⟩ := of_decide_eq_true (Except.ok.inj run)
  have time : now.generalizedTime = ofLiteral "20240101000000Z" := by decide +kernel
  have reached := Reachable.atStart started
  have caller : (Session.mk .throw (some principal)).principal? = some principal := rfl
  obtain ⟨creates, modifies⟩ := stamps_follow_caller reached rfl caller now
  have created := creates _ _ _ (Prod.ext added rfl)
  obtain ⟨_, place, partition, stored, same, stamps⟩ := modifies _ _ _ _ (Prod.ext modified rfl)
  cases named.symm.trans same
  rw [time, written] at created stamps
  exact ⟨config, service, start, _, _, ⟨.throw, some principal⟩, principal, name, _, changes, now,
    reached, rfl, caller, named, Prod.ext added rfl, Prod.ext modified rfl, numbered, keyed, rfl,
    created, place, partition, stored, stamps⟩

end Service

end Directory
