import Directory.Proofs.Partition.Relocation
import Directory.Proofs.Schema.MergedValues
import Directory.Proofs.Service.Frames
import Directory.Proofs.Service.ValueIdentity

namespace Directory

open Text

/-! # Values of added entries

What was given for an attribute is what a comparison finds right after the entry was added, as far
as the rule of the attribute can read it.  Only where letter case counts a value can get lost, to
one that came before it in other letters. -/

/-- The identifiers of the attributes that a service sets in an entry to be added. -/
def Entry.stampIds : List Text := ["createTimestamp", "creatorsName"]

/-- What the entry has in the place of a stamp is of the type of the stamp. -/
def Schema.HasTypedStamps (schema : Schema) (entry : Entry) : Prop :=
  ∀ id ∈ Entry.stampIds, ∀ attr, entry.get? id = some attr →
    schema.attributeType? attr.id = schema.attributeType? id

/-- The entry is the given one with at most stamps put in. -/
structure Entry.Stamps (given entry : Entry) : Prop where
  dn : entry.dn = given.dn
  bound : ∀ key, entry.attributes.get? key = given.attributes.get? key ∨
    ∃ id ∈ stampIds, key = asciiLower id ∧ ∃ value, entry.attributes.get? key = some ⟨id, [value]⟩

namespace Entry

variable {given middle entry : Entry}

theorem Stamps.refl (entry : Entry) : entry.Stamps entry := ⟨rfl, fun _ => .inl rfl⟩

theorem Stamps.put (stamps : given.Stamps middle) {id : Text} (isStamp : id ∈ stampIds)
    (value : Text) : given.Stamps (middle.put id [value]) := by
  refine ⟨(dn_put middle id [value]).trans stamps.dn, fun key => ?_⟩
  have found : (middle.put id [value]).attributes.get? key =
      if asciiLower id = key then some ⟨id, [value]⟩ else middle.attributes.get? key :=
    KeyTable.get?_insert ..
  rw [found]
  split
  · next same => exact .inr ⟨id, isStamp, same.symm, value, rfl⟩
  · exact stamps.bound key

theorem exists_stamped (given : Entry) (now : Text) (principal? : Option Dn) :
    ∃ entry, (Request.add given).stamped now principal? = .add entry ∧ given.Stamps entry := by
  have dated : given.Stamps (given.put "createTimestamp" [now]) :=
    (Stamps.refl given).put (by decide) now
  cases principal? with
  | none => exact ⟨_, rfl, dated⟩
  | some principal => exact ⟨_, rfl, dated.put (by decide) principal.text⟩

end Entry

namespace Schema

variable {schema : Schema} {given entry : Entry} {type : AttributeType}

theorem valuesGiven_of_stamps (stamps : given.Stamps entry) (typed : schema.HasTypedStamps given)
    (unstamped : ∀ id ∈ Entry.stampIds, schema.attributeType? id ≠ some type) :
    schema.valuesGiven entry type = schema.valuesGiven given type := by
  have same : (entry.attributes.filter fun _ attr => schema.attributeType? attr.id = some type) =
      given.attributes.filter fun _ attr => schema.attributeType? attr.id = some type := by
    refine KeyTable.ext_get? fun key => ?_
    rw [KeyTable.get?_filter, KeyTable.get?_filter]
    rcases stamps.bound key with kept | ⟨id, isStamp, rfl, value, stamped⟩
    · rw [kept]
    · rw [stamped, Option.filter_some, if_neg (by simpa using unstamped id isStamp), eq_comm,
        Option.filter_eq_none_iff]
      intro attr found
      rw [typed id isStamp attr found]
      simpa using unstamped id isStamp
  rw [valuesGiven, same, valuesGiven]

theorem exists_type_of_stamps (stamps : given.Stamps entry) (typed : schema.HasTypedStamps given)
    (known : ∀ attr ∈ entry.attributes.values, attr.values ≠ [] →
      ∃ type, schema.attributeType? attr.id = some type)
    {attr : Attribute} (listed : attr ∈ given.attributes.values) (present : attr.values ≠ []) :
    ∃ type, schema.attributeType? attr.id = some type := by
  obtain ⟨key, found⟩ := KeyTable.mem_values_iff.mp listed
  rcases stamps.bound key with kept | ⟨id, isStamp, rfl, value, stamped⟩
  · exact known attr (KeyTable.mem_values_iff.mpr ⟨key, kept.trans found⟩) present
  · rw [typed id isStamp attr found]
    exact known ⟨id, [value]⟩ (KeyTable.mem_values_iff.mpr ⟨_, stamped⟩) (by simp)

end Schema

namespace Agent

variable {agent : Agent} {contexts after : NamingContexts} {given dn : Dn} {partition : Partition}
  {entry stored : Entry} {mode : ReferralMode} {response : Response} {name value : Text}
  {type : AttributeType}

theorem exists_stored_of_add (distinct : contexts.HasDistinctIds)
    (separated : contexts.IsSeparated)
    (added : agent.answer contexts (.add entry) mode = (.ok response, after)) :
    ∃ dn partition stored, agent.Finds after entry.dn dn partition stored ∧
      stored.attributes = (agent.schema.normalizeEntry entry).attributes ∧
      agent.schema.validate stored = .ok () := by
  have answered : (commit contexts (agent.planAdd contexts entry mode)).1 = .ok response :=
    congrArg Prod.fst added
  obtain ⟨partition, write, prepared, performed⟩ :=
    performs_of_commit distinct (fun _ => serves_planAdd) answered
  have isAfter : (commit contexts (agent.planAdd contexts entry mode)).2 = after :=
    congrArg Prod.snd added
  rw [isAfter] at performed
  cases prepared with
  | add canonical accepted =>
    obtain ⟨dn, normalized, same⟩ := bind_eq_ok_iff.mp canonical
    cases same
    obtain ⟨owned, _⟩ := Partition.admits_create performed.admitted
    let stored : Entry := { agent.schema.normalizeEntry entry with dn }
    have found : Store.find? (partition.store.put stored) dn = some stored := by
      rw [Store.find?, Store.put, KeyTable.get?_insert, if_pos rfl]
    exact ⟨dn, _, stored, ⟨normalized, performed.resolve?_eq distinct separated
      (Partition.owned_of_checkOwned owned), found⟩, rfl, accepted⟩

theorem Finds.compare_eq (finds : agent.Finds contexts given dn partition entry)
    (known : agent.schema.attributeType? name = some type)
    (present : Schema.valuesOf type entry ≠ []) :
    (agent.answer contexts (.compare given name value) .manageDsaIt).1 =
      .ok (.compared ((Schema.valuesOf type entry).any fun held =>
        type.equality.equates held value)) := by
  have values : (Schema.valuesOf type entry).isEmpty = false := by simpa using present
  simp only [answer, compare, finds.read_eq, asserts, known, values, refuseIf, bind, Except.bind,
    Bool.false_eq_true, if_false]
  rfl

/-- Of what was given for a type, a comparison finds what the rule reads and, where letter case
counts, what is in the letters of something that stayed. -/
theorem compare_of_add (distinct : contexts.HasDistinctIds) (separated : contexts.IsSeparated)
    (distinctTypes : agent.schema.HasDistinctTypes)
    (added : agent.answer contexts (.add entry) mode = (.ok response, after))
    (isGiven : value ∈ agent.schema.valuesGiven entry type)
    (named : agent.schema.attributeType? name = some type) :
    ∃ confirmed, (agent.answer after (.compare entry.dn name value) .manageDsaIt).1 =
        .ok (.compared confirmed) ∧
      (confirmed = true ↔ type.equality.equates value value = true ∧
        (type.equality = .caseExact →
          ∃ kept ∈ (agent.schema.valuesGiven entry type).eraseDupsBy sameIgnoringCase,
            kept.foldBlanks = value.foldBlanks)) := by
  obtain ⟨dn, partition, stored, finds, canonical, accepted⟩ :=
    exists_stored_of_add distinct separated added
  have values := Schema.valuesOf_eq_eraseDupsBy canonical accepted distinctTypes
    (Schema.mem_attributeTypes named)
  obtain ⟨kept, isKept, _⟩ := exists_mem_eraseDupsBy _ isGiven
  refine ⟨_, finds.compare_eq named (by rw [values]; exact List.ne_nil_of_mem isKept), ?_⟩
  rw [values, List.any_eq_true]
  exact MatchingRule.exists_equates_kept_iff isGiven

end Agent

namespace Service

variable {config : Config} {service : Service} {start contexts after : NamingContexts}
  {now : Instant} {mode : ReferralMode} {principal? reader? : Option Dn} {response : Response}
  {given : Entry} {attr : Attribute} {value : Text}

theorem request_of_passAll {given passed : Context}
    (started : ofConfig config = .ok (service, start))
    (passes : Stage.passAll now service.stages given = (.ok (), passed)) :
    passed.request = if config.operationalAttributes then
      given.request.stamped now.generalizedTime given.principal? else given.request := by
  obtain ⟨administrators, _, stages⟩ := stages_eq started
  rw [stages] at passes
  cases allowed :
      (AccessControl.mk config.access.allowAnonymousReads administrators).check given with
  | error refusal =>
    rw [Stage.passAll_of_refused allowed] at passes
    simp at passes
  | ok =>
    simp only [Stage.passAll, Stage.pass, allowed, bind, Except.bind] at passes
    cases stamps : config.operationalAttributes with
    | false =>
      rw [stamps] at passes
      cases passes
      rfl
    | true =>
      rw [stamps] at passes
      cases passes
      rfl

/-- What was carried out is the request, with the stamps that the service sets. -/
theorem exists_answer_of_execute {request : Request}
    (started : ofConfig config = .ok (service, start))
    (answered : (service.execute now contexts ⟨request, mode, principal?⟩).1 =
      (.ok response, after)) :
    ∃ asked, service.agent.answer contexts (if config.operationalAttributes then
        request.stamped now.generalizedTime principal? else request) asked =
      (.ok response, after) := by
  cases passes : Stage.passAll now service.stages ⟨request, mode, principal?⟩ with
  | mk outcome passed =>
    cases outcome with
    | error refusal => simp [execute, passes] at answered
    | ok =>
      have carried := request_of_passAll started passes
      simp only [execute, passes] at answered
      exact ⟨passed.mode, carried ▸ answered⟩

/-- What the agent adds is the given entry with stamps, if the service sets them. -/
theorem exists_stamped_of_add (started : ofConfig config = .ok (service, start))
    (added : (service.execute now contexts ⟨.add given, mode, principal?⟩).1 =
      (.ok response, after)) :
    ∃ entry asked, given.Stamps entry ∧ (config.operationalAttributes = false → entry = given) ∧
      service.agent.answer contexts (.add entry) asked = (.ok response, after) := by
  obtain ⟨asked, answered⟩ := exists_answer_of_execute started added
  cases stamps : config.operationalAttributes with
  | false =>
    rw [stamps, if_neg Bool.false_ne_true] at answered
    exact ⟨given, asked, .refl given, fun _ => rfl, answered⟩
  | true =>
    obtain ⟨entry, stamped, isStamped⟩ := given.exists_stamped now.generalizedTime principal?
    rw [stamps, if_pos rfl, stamped] at answered
    exact ⟨entry, asked, isStamped, fun bare => absurd bare (by decide), answered⟩

/-- Right after an entry was added, comparing what was given for an attribute answers, and confirms
it if the rule of the attribute can read it; where letter case counts, something has to have its
letters that no value before it has in other letters.  The stamps that a service sets are left out,
and nothing else is in their place. -/
theorem added_values_compare (reached : Reachable config service contexts)
    (added : (service.execute now contexts ⟨.add given, mode, principal?⟩).1 =
      (.ok response, after))
    (typed : config.operationalAttributes = true → service.agent.schema.HasTypedStamps given)
    (listed : attr ∈ given.attributes.values) (isGiven : value ∈ attr.values)
    (reads : config.access.bars .compare reader? = false) :
    ∃ type, service.agent.schema.attributeType? attr.id = some type ∧
      ((∀ id ∈ Entry.stampIds, service.agent.schema.attributeType? id ≠ some type) →
        ∀ later name, service.agent.schema.attributeType? name = some type →
          ∃ confirmed, service.managed later after reader? (.compare given.dn name value) =
              .ok (.compared confirmed) ∧
            (confirmed = true ↔ type.equality.equates value value = true ∧
              (type.equality = .caseExact →
                ∃ kept ∈ (service.agent.schema.valuesGiven given type).eraseDupsBy sameIgnoringCase,
                  kept.foldBlanks = value.foldBlanks))) := by
  obtain ⟨start, _, started, _⟩ := id reached
  obtain ⟨entry, asked, stamps, unchanged, answered⟩ := exists_stamped_of_add started added
  obtain ⟨_, _, _, _, canonical, accepted⟩ :=
    Agent.exists_stored_of_add reached.hasDistinctIds reached.isSeparated answered
  have present : attr.values ≠ [] := List.ne_nil_of_mem isGiven
  have known : ∃ type, service.agent.schema.attributeType? attr.id = some type := by
    have typedHere : ∀ attr ∈ entry.attributes.values, attr.values ≠ [] →
        ∃ type, service.agent.schema.attributeType? attr.id = some type :=
      fun attr => Schema.exists_type_of_accepted canonical accepted
    cases sets : config.operationalAttributes with
    | false => exact typedHere attr (unchanged sets ▸ listed) present
    | true => exact Schema.exists_type_of_stamps stamps (typed sets) typedHere listed present
  obtain ⟨type, ofAttr⟩ := known
  refine ⟨type, ofAttr, fun unstamped later name named => ?_⟩
  have sameGiven : service.agent.schema.valuesGiven entry type =
      service.agent.schema.valuesGiven given type := by
    cases sets : config.operationalAttributes with
    | false => rw [unchanged sets]
    | true => exact Schema.valuesGiven_of_stamps stamps (typed sets) unstamped
  have member : value ∈ service.agent.schema.valuesGiven entry type :=
    sameGiven ▸ Schema.mem_valuesGiven_iff.mpr ⟨attr, listed, ofAttr, isGiven⟩
  rw [managed_compare_eq_of_reads started reads, ← stamps.dn, ← sameGiven]
  exact Agent.compare_of_add reached.hasDistinctIds reached.isSeparated reached.hasDistinctTypes
    answered member named

/-- A unit whose description is given under two names: the text in small letters is dropped for the
one in capitals, which came first, and is found all the same. -/
theorem added_values_compare_under_two_names :
    ∃ (config : Config) (service : Service) (contexts after : NamingContexts) (given : Entry)
      (attr : Attribute) (type : AttributeType),
      Reachable config service contexts ∧ config.operationalAttributes = true ∧
      (service.execute ⟨2024, 1, 1, 0, 0, 0⟩ contexts ⟨.add given, .throw, some given.dn⟩).1 =
        (.ok .done, after) ∧
      attr ∈ given.attributes.values ∧ Text.ofLiteral "plain text" ∈ attr.values ∧
      service.agent.schema.attributeType? attr.id = some type ∧
      (service.agent.schema.valuesGiven given type).eraseDupsBy sameIgnoringCase =
        [Text.ofLiteral "PLAIN TEXT", Text.ofLiteral "other"] ∧
      ∀ later, service.managed later after (some given.dn)
        (.compare given.dn "DESCRIPTION" "plain text") = .ok (.compared true) := by
  let config := Config.single "p" "o=a" [("objectClass", ["organization"]), ("o", ["a"])]
  let now : Instant := ⟨2024, 1, 1, 0, 0, 0⟩
  let attr : Attribute := ⟨"description", ["plain text", "other"]⟩
  let type : AttributeType :=
    { oid := "2.5.4.13", names := ["description"], syntaxOid := ValueSyntax.directoryString.oid }
  have run : (do
      let dn ← Dn.parse "ou=b,o=a"
      let built ← ofConfig config
      let given := Entry.ofValues dn [("objectClass", ["organizationalUnit"]), ("ou", ["b"]),
        ("description", ["plain text", "other"]), ("2.5.4.13", ["PLAIN TEXT"])]
      Except.ok (decide ((∀ id ∈ Entry.stampIds, given.get? id = none) ∧
        (built.1.execute now built.2 ⟨.add given, .throw, some given.dn⟩).1.1 = .ok .done ∧
        attr ∈ given.attributes.values ∧
        built.1.agent.schema.attributeType? attr.id = some type ∧
        built.1.agent.schema.attributeType? "DESCRIPTION" = some type ∧
        (∀ id ∈ Entry.stampIds, built.1.agent.schema.attributeType? id ≠ some type) ∧
        (built.1.agent.schema.valuesGiven given type).eraseDupsBy sameIgnoringCase =
          [Text.ofLiteral "PLAIN TEXT", Text.ofLiteral "other"]))) =
        Except.ok (ε := Error) true := by
    decide +kernel
  obtain ⟨dn, _, run⟩ := bind_eq_ok_iff.mp run
  obtain ⟨⟨service, start⟩, started, run⟩ := bind_eq_ok_iff.mp run
  obtain ⟨bare, added, listed, ofAttr, named, unstamped, kept⟩ :=
    of_decide_eq_true (Except.ok.inj run)
  have reached := Reachable.atStart started
  obtain ⟨known, ofKnown, confirms⟩ := added_values_compare reached (Prod.ext added rfl)
    (fun _ id isStamp attr found => by cases (bare id isStamp).symm.trans found) listed
    (List.mem_cons_self : Text.ofLiteral "plain text" ∈ attr.values)
    (rfl : config.access.bars .compare (some dn) = false)
  obtain rfl := Option.some.inj (ofAttr.symm.trans ofKnown)
  refine ⟨config, service, start, _, _, attr, type, reached, rfl, Prod.ext added rfl, listed,
    List.mem_cons_self, ofAttr, kept, fun later => ?_⟩
  obtain ⟨confirmed, compared, iff⟩ := confirms unstamped later "DESCRIPTION" named
  rw [iff.mpr ⟨by decide +kernel, nofun⟩] at compared
  exact compared

/-- Of a password in two letter cases the one under the smaller identifier stays, and comparing the
other one does not find it. -/
theorem added_value_lost_to_letter_case :
    ∃ (config : Config) (service : Service) (contexts : NamingContexts) (given : Entry)
      (attr : Attribute),
      Reachable config service contexts ∧
      (service.execute ⟨2024, 1, 1, 0, 0, 0⟩ contexts ⟨.add given, .throw, some given.dn⟩).1.1 =
        .ok .done ∧
      attr ∈ given.attributes.values ∧ attr.id = Text.ofLiteral "userPassword" ∧
      Text.ofLiteral "secret" ∈ attr.values ∧
      service.managed ⟨2024, 1, 1, 0, 0, 0⟩
        (service.execute ⟨2024, 1, 1, 0, 0, 0⟩ contexts ⟨.add given, .throw, some given.dn⟩).1.2
        (some given.dn) (.compare given.dn "userPassword" "secret") = .ok (.compared false) := by
  let config := Config.single "p" "o=a" [("objectClass", ["organization"]), ("o", ["a"])]
  let now : Instant := ⟨2024, 1, 1, 0, 0, 0⟩
  let attr : Attribute := ⟨"userPassword", ["secret"]⟩
  have run : (do
      let dn ← Dn.parse "ou=b,o=a"
      let built ← ofConfig config
      let given := Entry.ofValues dn [("objectClass", ["organizationalUnit"]), ("ou", ["b"]),
        ("userPassword", ["secret"]), ("2.5.4.35", ["SECRET"])]
      let executed := (built.1.execute now built.2 ⟨.add given, .throw, some given.dn⟩).1
      Except.ok (decide (executed.1 = .ok .done ∧ attr ∈ given.attributes.values ∧
        built.1.managed now executed.2 (some given.dn)
          (.compare given.dn "userPassword" "secret") = .ok (.compared false)))) =
        Except.ok (ε := Error) true := by
    decide +kernel
  obtain ⟨dn, _, run⟩ := bind_eq_ok_iff.mp run
  obtain ⟨⟨service, start⟩, started, run⟩ := bind_eq_ok_iff.mp run
  obtain ⟨added, listed, compared⟩ := of_decide_eq_true (Except.ok.inj run)
  exact ⟨config, service, start, _, attr, Reachable.atStart started, added, listed, rfl,
    List.mem_cons_self, compared⟩

end Service

end Directory
