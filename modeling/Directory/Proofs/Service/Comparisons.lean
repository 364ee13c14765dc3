import Directory.Proofs.Filter.RoundTrip
import Directory.Proofs.Service.Stored

namespace Directory

open Text

/-! # Comparing and searching

To a caller who manages delegations, comparing a value of an entry and searching the entry alone by
a filter that was written out and read again come to the same. -/

namespace Agent

variable {agent : Agent} {contexts : NamingContexts} {given dn : Dn} {partition : Partition}
  {entry : Entry} {type : AttributeType} {attr value : Text}

/-- The result of a search that looks at one entry only. -/
def onlyIf (found : Bool) (entry : Entry) : SearchResult :=
  if found then ⟨[entry], [], false⟩ else .empty

theorem mem_onlyIf_iff {found : Bool} : entry ∈ (onlyIf found entry).entries ↔ found = true := by
  cases found <;> simp [onlyIf, SearchResult.empty]

theorem onlyIf_eq_nil_iff {found : Bool} :
    (onlyIf found entry).entries = [] ↔ found = false := by
  cases found <;> simp [onlyIf, SearchResult.empty]

theorem Finds.search_eq (finds : agent.Finds contexts given dn partition entry)
    (filter : Filter) : agent.search contexts given .base filter .manageDsaIt =
      .ok (onlyIf (filter.holds agent.schema entry) entry) := by
  have managed : ReferralMode.managesDsaIt .manageDsaIt = true := rfl
  have searched : searchStore agent.schema partition.store dn .base filter .manageDsaIt =
      onlyIf (filter.holds agent.schema entry) entry := by
    simp only [searchStore, candidates, finds.stored, managed, Option.filter_some,
      Option.toList_some, Bool.not_true, Bool.and_false, Bool.false_eq_true, if_false, gather,
      List.any_nil, SearchResult.empty, onlyIf]
  simp only [search, finds.normalized, covering, finds.resolved,
    agent.classify_manageDsaIt .search finds.stored, bind, Except.bind, Outcome.result, searched]

theorem Finds.compare_eq_asserts (finds : agent.Finds contexts given dn partition entry)
    (attr value : Text) : agent.compare contexts given attr value .manageDsaIt =
      agent.asserts entry attr value := by
  rw [compare, finds.read_eq]
  rfl

theorem asserts_eq_of_known (known : agent.schema.attributeType? attr = some type)
    (value : Text) : agent.asserts entry attr value =
      if (Filter.present attr).holds agent.schema entry then
        .ok ((Filter.equal attr value).holds agent.schema entry)
      else .error (.noSuchAttribute entry.dn.text attr) := by
  simp only [asserts, known, Filter.holds, Filter.valuesUnder]
  cases Schema.valuesOf type entry <;> rfl

end Agent

theorem Filter.present_holds_of_equal_holds {schema : Schema} {entry : Entry} {attr value : Text}
    (holding : (equal attr value).holds schema entry = true) :
    (present attr).holds schema entry = true := by
  cases known : schema.attributeType? attr with
  | none => simp [holds, known] at holding
  | some type =>
    simp only [holds, known, List.any_eq_true] at holding
    obtain ⟨held, member, -⟩ := holding
    simp [holds, valuesUnder, known, List.ne_nil_of_mem member]

namespace Service

variable {config : Config} {service : Service} {contexts : NamingContexts} {partition : Partition}
  {entry : Entry} {type : AttributeType} {attr : Text}

/-- A value of a stored entry is confirmed if a search of the entry alone finds it by the text of
the condition on the value.  There is no such attribute if the search finds nothing by the text of
the condition on the attribute; otherwise the value is denied.  The attribute is known, and its
description can be written in the text of a filter. -/
theorem compare_agrees_with_search (reached : Reachable config service contexts)
    (listed : partition ∈ contexts.partitions) (stored : entry ∈ partition.store.values)
    (known : service.agent.schema.attributeType? attr = some type)
    (named : Filter.IsName attr) (value : Text) :
    ∃ equal present matching having,
      Filter.parse (Filter.equal attr value).text = .ok equal ∧
      service.agent.search contexts entry.dn .base equal .manageDsaIt = .ok matching ∧
      Filter.parse (Filter.present attr).text = .ok present ∧
      service.agent.search contexts entry.dn .base present .manageDsaIt = .ok having ∧
      (service.agent.compare contexts entry.dn attr value .manageDsaIt = .ok true ↔
        entry ∈ matching.entries) ∧
      (service.agent.compare contexts entry.dn attr value .manageDsaIt =
        .error (.noSuchAttribute entry.dn.text attr) ↔ having.entries = []) ∧
      (entry ∉ matching.entries → having.entries ≠ [] →
        service.agent.compare contexts entry.dn attr value .manageDsaIt = .ok false) := by
  have finds := reached.finds listed stored (reached.normalizeDn_stored partition listed entry stored)
    (Dn.beq_iff_path.mpr rfl)
  refine ⟨_, _, _, _, (Filter.WellNamed.equal named).parse_text, finds.search_eq _,
    (Filter.WellNamed.present named).parse_text, finds.search_eq _, ?_⟩
  rw [finds.compare_eq_asserts, Agent.asserts_eq_of_known known, Agent.mem_onlyIf_iff, ne_eq,
    Agent.onlyIf_eq_nil_iff]
  cases having : (Filter.present attr).holds service.agent.schema entry with
  | false =>
    have missing : ¬ (Filter.equal attr value).holds service.agent.schema entry = true := by
      intro holding
      rw [Filter.present_holds_of_equal_holds holding] at having
      contradiction
    simp [missing]
  | true => simp

/-- A description full of the characters that a filter escapes, asked for by the number of its
type. -/
theorem compare_agrees_with_search_on_escapes :
    ∃ (config : Config) (service : Service) (contexts : NamingContexts) (partition : Partition)
      (entry : Entry) (type : AttributeType) (equal : Filter) (matching : SearchResult),
      Reachable config service contexts ∧ partition ∈ contexts.partitions ∧
      entry ∈ partition.store.values ∧
      service.agent.schema.attributeType? "2.5.4.13" = some type ∧ Filter.IsName "2.5.4.13" ∧
      Filter.parse (Filter.equal "2.5.4.13" "(A*\\)").text = .ok equal ∧
      service.agent.search contexts entry.dn .base equal .manageDsaIt = .ok matching ∧
      entry ∈ matching.entries ∧
      service.agent.compare contexts entry.dn "2.5.4.13" "(A*\\)" .manageDsaIt = .ok true := by
  let config := Config.single "p" "o=a"
    [("objectClass", ["organization"]), ("o", ["a"]), ("description", ["other", "(a*\\)"])]
  let type : AttributeType :=
    { oid := "2.5.4.13", names := ["description"], syntaxOid := ValueSyntax.directoryString.oid }
  have run : (do
      let dn ← Dn.parse "o=a"
      let built ← ofConfig config
      let partition ← Agent.covering built.2 dn
      let entry ← Agent.existing partition dn
      Except.ok (decide (built.1.agent.schema.attributeType? "2.5.4.13" = some type ∧
        built.1.agent.compare built.2 entry.dn "2.5.4.13" "(A*\\)" .manageDsaIt = .ok true))) =
          Except.ok (ε := Error) true := by
    decide +kernel
  obtain ⟨dn, _, run⟩ := bind_eq_ok_iff.mp run
  obtain ⟨⟨service, start⟩, started, run⟩ := bind_eq_ok_iff.mp run
  obtain ⟨partition, covered, run⟩ := bind_eq_ok_iff.mp run
  obtain ⟨entry, found, run⟩ := bind_eq_ok_iff.mp run
  obtain ⟨known, confirmed⟩ := of_decide_eq_true (Except.ok.inj run)
  have reached := Reachable.atStart started
  have listed := Agent.mem_of_covering covered
  have stored := KeyTable.mem_values_iff.mpr ⟨_, Agent.existing_eq_ok_iff.mp found⟩
  have named : Filter.IsName "2.5.4.13" := Filter.isAttributeName_iff.mp (by decide +kernel)
  obtain ⟨equal, _, matching, _, read, searched, _, _, agree, _⟩ :=
    compare_agrees_with_search reached listed stored known named "(A*\\)"
  exact ⟨config, service, start, partition, entry, type, equal, matching, reached, listed, stored,
    known, named, read, searched, agree.mp confirmed, confirmed⟩

/-- A schema may name a type by the empty text, which no filter can be read with. -/
theorem nameless_value_confirmed_unsearchable :
    ∃ (config : Config) (service : Service) (contexts : NamingContexts) (partition : Partition)
      (entry : Entry) (attr : Text) (type : AttributeType),
      Reachable config service contexts ∧ partition ∈ contexts.partitions ∧
      entry ∈ partition.store.values ∧ service.agent.schema.attributeType? attr = some type ∧
      (∀ c ∈ attr, c.isAlphanum ∨ c = '-' ∨ c = '.' ∨ c = ';') ∧
      service.agent.compare contexts entry.dn attr "v" .manageDsaIt = .ok true ∧
      ∀ equal, Filter.parse (Filter.equal attr "v").text ≠ .ok equal := by
  let type : AttributeType :=
    { oid := "1.2.3", names := [""], syntaxOid := ValueSyntax.directoryString.oid }
  let config := { Config.single "p" "o=a" [("objectClass", ["organization", "extensibleObject"]),
    ("o", ["a"]), ("", ["v"])] with schema := ⟨[type], []⟩ }
  have run : (do
      let dn ← Dn.parse "o=a"
      let built ← ofConfig config
      let partition ← Agent.covering built.2 dn
      let entry ← Agent.existing partition dn
      Except.ok (decide (built.1.agent.schema.attributeType? [] = some type ∧
        built.1.agent.compare built.2 entry.dn [] "v" .manageDsaIt = .ok true ∧
        (Filter.parse (Filter.equal [] "v").text).isOk = false))) =
          Except.ok (ε := Error) true := by
    decide +kernel
  obtain ⟨dn, _, run⟩ := bind_eq_ok_iff.mp run
  obtain ⟨⟨service, start⟩, started, run⟩ := bind_eq_ok_iff.mp run
  obtain ⟨partition, covered, run⟩ := bind_eq_ok_iff.mp run
  obtain ⟨entry, found, run⟩ := bind_eq_ok_iff.mp run
  obtain ⟨known, confirmed, unread⟩ := of_decide_eq_true (Except.ok.inj run)
  refine ⟨config, service, start, partition, entry, [], type, Reachable.atStart started,
    Agent.mem_of_covering covered,
    KeyTable.mem_values_iff.mpr ⟨_, Agent.existing_eq_ok_iff.mp found⟩, known,
    List.forall_mem_nil _, confirmed, fun equal read => ?_⟩
  rw [read] at unread
  exact Bool.true_eq_false.mp unread

end Service

end Directory
