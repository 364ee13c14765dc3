import Directory.Proofs.Referral.NearestDelegation
import Directory.Proofs.Schema.Requirements
import Directory.Proofs.Service.Refusals
import Directory.Proofs.Service.Searches
import Directory.Proofs.Service.StoredAttributes

namespace Directory

/-! # Referrals lead somewhere

Every stored delegation holds URLs, since its class requires them, whatever the class was declared
by and however the attribute was written.  A refusal that refers has the URL of each value of the
delegation that decided, and a reference in a search result those of the delegation it is for. -/

/-- The URLs at which an operation on a name continues for a stored delegation at or above it: one
for each of its values, in order. -/
structure Partition.LeadsOn (partition : Partition) (name point : Dn) (entry : Entry)
    (urls : List Text) : Prop where
  above : point.isAncestorOrSelfOf name = true
  stored : partition.store.find? point = some entry
  isReferral : entry.isReferral = true
  each : List.Forall₂
    (fun value url => ∃ target, DelegationTarget.ofRef value = .ok target ∧
      url = target.urlFor (.below (name.rdns.take (name.length - point.length)) target.base))
    (entry.values Entry.refAttribute) urls

/-- The URLs are those of the delegation, at or above the name that the request addresses, that
decides what becomes of the request. -/
def Service.LeadsOn (service : Service) (contexts : NamingContexts) (request : Request)
    (mode : ReferralMode) (urls : List Text) : Prop :=
  ∃ dn partition point entry, service.agent.schema.normalizeDn request.target = .ok dn ∧
    contexts.resolve? dn = some partition ∧ partition.LeadsOn dn point entry urls ∧
    service.agent.Decides contexts mode request.kind dn
      (.redirect ((Delegation.ofEntry point entry).redirects dn))

theorem Outcome.result_eq_referral_iff {outcome : Outcome} {name : Dn} {urls : List Text} :
    outcome.result name = .error (.referral urls) ↔
      ∃ targets, outcome = .redirect targets ∧ urls = targets.map RedirectTarget.url := by
  cases outcome <;> simp [result, eq_comm]

theorem Outcome.exists_delegation_of_redirect {isPresent : Bool}
    {above? itself? : Option Delegation} {mode : ReferralMode} {name : Dn}
    {targets : List RedirectTarget}
    (redirects : decide isPresent above? itself? mode name = .redirect targets) :
    ∃ delegation, (above? = some delegation ∨ itself? = some delegation) ∧
      targets = delegation.redirects name := by
  have ofDelegation (delegation : Delegation)
      (settled : delegation.outcome mode name = .redirect targets) :
      targets = delegation.redirects name := by
    cases mode <;> simp_all [Delegation.outcome]
  unfold decide at redirects
  split at redirects
  · split at redirects <;> contradiction
  · split at redirects
    · next delegation => exact ⟨delegation, .inl rfl, ofDelegation delegation redirects⟩
    · split at redirects
      · split at redirects
        · next delegation => exact ⟨delegation, .inr rfl, ofDelegation delegation redirects⟩
        · contradiction
      · contradiction

/-- A redirect is that of a stored delegation at or above the name. -/
theorem Agent.Decides.exists_stored {agent : Agent} {contexts : NamingContexts}
    {mode : ReferralMode} {kind : OperationKind} {dn : Dn} {targets : List RedirectTarget}
    (decides : agent.Decides contexts mode kind dn (.redirect targets))
    (named : ∀ partition ∈ contexts.partitions, partition.suffix.isRoot = false) :
    ∃ partition point entry, contexts.resolve? dn = some partition ∧
      point.isAncestorOrSelfOf dn = true ∧ partition.store.find? point = some entry ∧
      entry.isReferral = true ∧ targets = (Delegation.ofEntry point entry).redirects dn := by
  generalize settled : Outcome.redirect targets = outcome at decides
  cases decides with
  | @classified _ _ partition other resolved =>
    obtain ⟨delegation, ended | isTarget, rfl⟩ :=
      Outcome.exists_delegation_of_redirect settled.symm
    · have suffixNamed := named partition (NamingContexts.mem_of_resolve? resolved).1
      obtain ⟨entry, nearest, same⟩ := Partition.nearest_of_walk suffixNamed ended
      exact ⟨partition, delegation.point, entry, resolved, (Dn.isAncestorOf_iff.mp nearest.above).1,
        nearest.stored, nearest.isReferral, by rw [same]⟩
    · split at isTarget
      · obtain ⟨entry, stored, referral, rfl⟩ :=
          ReferralPolicy.delegationAt?_eq_some_iff.mp isTarget
        exact ⟨partition, dn, entry, resolved, Dn.isAncestorOrSelfOf_refl dn, stored, referral, rfl⟩
      · contradiction
  | @added _ parent partition resolved isParent =>
    have upper := Dn.parent_isAncestorOrSelfOf isParent
    obtain ⟨delegation, ended | isTarget, rfl⟩ :=
      Outcome.exists_delegation_of_redirect settled.symm
    · have suffixNamed := named partition (NamingContexts.mem_of_resolve? resolved).1
      obtain ⟨entry, nearest, same⟩ := Partition.nearest_of_walk suffixNamed ended
      have lies := Dn.isAncestorOrSelfOf_trans (Dn.isAncestorOf_iff.mp nearest.above).1 upper
      exact ⟨partition, delegation.point, entry, resolved, lies, nearest.stored,
        nearest.isReferral, by rw [same]⟩
    · obtain ⟨entry, stored, referral, rfl⟩ := ReferralPolicy.delegationAt?_eq_some_iff.mp isTarget
      exact ⟨partition, parent, entry, resolved, upper, stored, referral, rfl⟩

theorem Partition.leadsOn_redirects {partition : Partition} {name point : Dn} {entry : Entry}
    (above : point.isAncestorOrSelfOf name = true)
    (stored : partition.store.find? point = some entry) (referral : entry.isReferral = true)
    (usable : entry.HasUsableRefs) :
    partition.LeadsOn name point entry
      (((Delegation.ofEntry point entry).redirects name).map RedirectTarget.url) := by
  refine ⟨above, stored, referral, ?_⟩
  have lies : (Delegation.ofEntry point entry).point.isAncestorOrSelfOf name = true := above
  rw [Delegation.redirects, Dn.relativeTo?_of_lies lies, Option.getD_some, List.map_map,
    List.forall₂_map_right_iff]
  exact (Entry.forall₂_delegationTargets usable referral).imp fun value target read =>
    ⟨target, read, rfl⟩

namespace Agent

variable {schema : Schema} {store : Store} {filter : Filter} {mode : ReferralMode} {base : Dn}
  {scope : SearchScope} {reference : SearchReference}

theorem mem_references_reporting {entry : Entry} {result : SearchResult}
    (listed : reference ∈ (reporting mode entry result).references) :
    reference = Agent.reference entry ∨ reference ∈ result.references := by
  cases mode with
  | ignore => exact .inr listed
  | throw | manageDsaIt => exact List.mem_cons.mp listed

theorem exists_of_mem_references_gather {entries : List Entry} {points : List Dn}
    (listed : reference ∈ (gather schema filter mode base points entries).references) :
    ∃ entry ∈ entries, entry.isReferral = true ∧ reference = Agent.reference entry := by
  induction entries generalizing points with
  | nil => exact absurd listed List.not_mem_nil
  | cons entry rest ih =>
    have later {points : List Dn}
        (listed : reference ∈ (gather schema filter mode base points rest).references) :
        ∃ found ∈ entry :: rest, found.isReferral = true ∧ reference = Agent.reference found := by
      obtain ⟨found, isFound, facts⟩ := ih listed
      exact ⟨found, List.mem_cons_of_mem _ isFound, facts⟩
    rw [gather] at listed
    split at listed
    · exact later listed
    · split at listed
      · next stops =>
        rcases mem_references_reporting listed with rfl | listed
        · simp only [Bool.and_eq_true] at stops
          exact ⟨entry, List.mem_cons_self, stops.1.2, rfl⟩
        · exact later listed
      · dsimp only at listed
        split at listed <;> exact later listed

theorem mem_values_of_candidates {entry : Entry} (listed : entry ∈ candidates store base scope) :
    entry ∈ store.values := by
  have below {entry : Entry} (inside : entry ∈ store.subtree base) : entry ∈ store.values := by
    obtain ⟨key, found, _⟩ := Store.mem_subtree_iff.mp inside
    exact KeyTable.mem_values_iff.mpr ⟨key, found⟩
  cases scope with
  | base => exact KeyTable.mem_values_iff.mpr ⟨_, Option.mem_toList.mp listed⟩
  | oneLevel => exact below (List.mem_filter.mp listed).1
  | subtree => exact below listed

theorem exists_of_mem_references_searchStore
    (listed : reference ∈ (searchStore schema store base scope filter mode).references) :
    ∃ entry ∈ store.values, entry.isReferral = true ∧ reference = Agent.reference entry := by
  unfold searchStore at listed
  dsimp only at listed
  split at listed
  · obtain ⟨entry, inScope, facts⟩ := exists_of_mem_references_gather listed
    exact ⟨entry, mem_values_of_candidates inScope, facts⟩
  · next top found =>
    obtain ⟨stored, delegates⟩ := Option.filter_eq_some_iff.mp found
    have gathered (listed : reference ∈ (gather schema filter mode base []
        ((candidates store base scope).filter fun other => other.dn == base)).references) :
        ∃ entry ∈ store.values, entry.isReferral = true ∧ reference = Agent.reference entry := by
      obtain ⟨entry, inScope, facts⟩ := exists_of_mem_references_gather listed
      exact ⟨entry, mem_values_of_candidates (List.mem_filter.mp inScope).1, facts⟩
    split at listed
    · exact gathered listed
    · rcases mem_references_reporting listed with rfl | listed
      · simp only [Bool.and_eq_true] at delegates
        exact ⟨top, KeyTable.mem_values_iff.mpr ⟨_, stored⟩, delegates.1, rfl⟩
      · exact gathered listed

end Agent

namespace Service

variable {config : Config} {service : Service} {contexts : NamingContexts} {urls : List Text}

theorem Reachable.built (reached : Reachable config service contexts) :
    Schema.core.extended config.schema = .ok service.agent.schema := by
  obtain ⟨start, events, started, _⟩ := reached
  exact (ofConfig_eq_ok started).1

theorem Reachable.refs_ne_nil (reached : Reachable config service contexts)
    (trimmed : ∀ type ∈ config.schema.attributeTypes, ∀ name ∈ type.names, name.trim = name) :
    ∀ partition ∈ contexts.partitions, ∀ entry ∈ partition.store.values,
      entry.isReferral = true → entry.values Entry.refAttribute ≠ [] := by
  intro partition listed entry stored
  exact Schema.refs_ne_nil reached.built (Schema.hasTrimmedNames_of_extended reached.built trimmed)
    (reached.accepted listed stored) (reached.identifiedBy partition listed entry stored)

theorem Reachable.leadsOn_of_grounds (reached : Reachable config service contexts)
    {request : Request} {mode : ReferralMode}
    (grounds : service.agent.Grounds contexts request mode (.referral urls)) :
    service.LeadsOn contexts request mode urls := by
  generalize refused : Error.referral urls = refusal at grounds
  cases grounds with
  | fault isFault =>
    cases refused
    contradiction
  | destination moves dn => contradiction
  | @decided dn outcome _ normalized decides result =>
    obtain ⟨targets, rfl, rfl⟩ := Outcome.result_eq_referral_iff.mp (refused ▸ result)
    obtain ⟨partition, point, entry, resolved, above, stored, referral, rfl⟩ :=
      decides.exists_stored fun partition listed => (reached.isFiled partition listed).1
    have listed := (NamingContexts.mem_of_resolve? resolved).1
    have usable := reached.hasUsableRefs partition listed entry
      (KeyTable.mem_values_iff.mpr ⟨_, stored⟩)
    exact ⟨dn, partition, point, entry, normalized, resolved,
      Partition.leadsOn_redirects above stored referral usable, decides⟩

theorem Reachable.urls_ne_nil (reached : Reachable config service contexts)
    (trimmed : ∀ type ∈ config.schema.attributeTypes, ∀ name ∈ type.names, name.trim = name)
    {request : Request} {mode : ReferralMode} (leads : service.LeadsOn contexts request mode urls) :
    urls ≠ [] := by
  obtain ⟨dn, partition, point, entry, _, resolved, onward, _⟩ := leads
  have held := reached.refs_ne_nil trimmed partition (NamingContexts.mem_of_resolve? resolved).1
    entry (KeyTable.mem_values_iff.mpr ⟨_, onward.stored⟩) onward.isReferral
  rintro rfl
  exact held (List.forall₂_nil_right_iff.mp onward.each)

theorem Reachable.exists_of_reference (reached : Reachable config service contexts) {now : Instant}
    {context : Context} {result : SearchResult}
    (answered : (service.execute now contexts context).1.1 = .ok (.found result))
    {reference : SearchReference} (listed : reference ∈ result.references) :
    ∃ partition ∈ contexts.partitions, ∃ entry ∈ partition.store.values,
      entry.isReferral = true ∧ entry.RefersBy reference := by
  obtain ⟨refusal, refused⟩ | ⟨passed, _, answers⟩ := service.execute_eq_cases now context
  · rw [refused] at answered
    contradiction
  · rw [answers] at answered
    obtain ⟨given, scope, filter, _, searched⟩ := Agent.found_of_answer answered
    simp only [Agent.search, bind_eq_ok_iff] at searched
    obtain ⟨base, _, partition, covered, _, _, same⟩ := searched
    cases same
    have member := Agent.mem_of_covering covered
    obtain ⟨entry, stored, referral, rfl⟩ := Agent.exists_of_mem_references_searchStore listed
    have usable := reached.hasUsableRefs partition member entry stored
    exact ⟨partition, member, entry, stored, referral, Entry.refersBy_reference usable referral⟩

/-- Over a schema whose added types have no blanks at the ends of their names, every stored
delegation has values and a target for each; a refusal that refers has the URLs of the delegation
that decided, and a reference those of the one it is for, so at least one. -/
theorem referrals_lead_on (reached : Reachable config service contexts)
    (trimmed : ∀ type ∈ config.schema.attributeTypes, ∀ name ∈ type.names, name.trim = name) :
    (∀ partition ∈ contexts.partitions, ∀ entry ∈ partition.store.values,
      entry.isReferral = true → entry.values Entry.refAttribute ≠ [] ∧
        List.Forall₂ (fun value target => DelegationTarget.ofRef value = .ok target)
          (entry.values Entry.refAttribute) entry.delegationTargets) ∧
    (∀ now context urls, (service.execute now contexts context).1.1 = .error (.referral urls) →
      urls ≠ [] ∧ service.LeadsOn contexts context.request context.mode urls) ∧
    (∀ session now command urls,
      (service.run session now contexts command).1 = .error (.referral urls) →
        urls ≠ [] ∧ ∃ request, command.request = .ok request ∧
          service.LeadsOn contexts request session.mode urls) ∧
    (∀ now context result, (service.execute now contexts context).1.1 = .ok (.found result) →
      ∀ reference ∈ result.references, reference.urls ≠ [] ∧
        ∃ partition ∈ contexts.partitions, ∃ entry ∈ partition.store.values,
          entry.isReferral = true ∧ entry.RefersBy reference) := by
  refine ⟨fun partition listed entry stored referral => ?_, fun now context urls refused => ?_,
    fun session now command urls refused => ?_, fun now context result answered reference met => ?_⟩
  · have usable := reached.hasUsableRefs partition listed entry stored
    exact ⟨reached.refs_ne_nil trimmed partition listed entry stored referral,
      Entry.forall₂_delegationTargets usable referral⟩
  · have leads := reached.leadsOn_of_grounds
      (service.refusesOnly_execute now contexts context _ refused)
    exact ⟨reached.urls_ne_nil trimmed leads, leads⟩
  · obtain ⟨request, read, grounds⟩ :=
      (service.refusesOnly_run now contexts session command _ refused).resolve_left nofun
    have leads := reached.leadsOn_of_grounds grounds
    exact ⟨reached.urls_ne_nil trimmed leads, request, read, leads⟩
  · obtain ⟨partition, listed, entry, stored, referral, refers⟩ :=
      reached.exists_of_reference answered met
    refine ⟨fun none => ?_, partition, listed, entry, stored, referral, refers⟩
    have held := reached.refs_ne_nil trimmed partition listed entry stored referral
    have urls := refers.urls
    rw [none] at urls
    exact held (List.forall₂_nil_right_iff.mp urls)

/-- The URLs of a delegation in capitals, replaced under the object identifier of their type. -/
theorem referrals_lead_on_replaced :
    ∃ (config : Config) (service : Service) (contexts : NamingContexts) (given : Dn)
      (urls : List Text),
      config.schema.attributeTypes.map AttributeType.names = ([["link"]] : List (List Text)) ∧
      Reachable config service contexts ∧ contexts.entryCount = 2 ∧
      (service.execute ⟨2024, 1, 1, 0, 0, 0⟩ contexts ⟨.lookup given, .throw, none⟩).1.1 =
        .error (.referral urls) ∧
      urls = (["ldap://h/cn=x,o=b", "ldaps://i/cn=x"] : List Text) ∧ urls ≠ [] ∧
      service.LeadsOn contexts (.lookup given) .throw urls := by
  have run : (do
      let delegation ← Dn.parse "ou=r,o=a"
      let given ← Dn.parse "cn=x,ou=r,o=a"
      let built ← ofConfig
        { Config.single "p" "o=a" [("objectClass", ["organization"]), ("o", ["a"])] with
          schema := { attributeTypes := [
            { oid := "1.2.3", names := ["link"], syntaxOid := ValueSyntax.ia5String.oid }] } }
      let contexts := built.1.after built.2 [
        .seed (.ofValues delegation [("objectClass", ["REFERRAL", "extensibleObject"]),
          ("ou", ["r"]), ("REF", ["ldap://g"])]),
        .call (some "o=a") (some .manageDsaIt) ⟨2024, 1, 1, 0, 0, 0⟩ (.modify "ou=r,o=a"
          [⟨.replace, "2.16.840.1.113730.3.1.34", ["ldap://h/o=b", "ldaps://i"]⟩])]
      Except.ok (decide (contexts.entryCount = 2 ∧
        (built.1.execute ⟨2024, 1, 1, 0, 0, 0⟩ contexts ⟨.lookup given, .throw, none⟩).1.1 =
          .error (.referral ["ldap://h/cn=x,o=b", "ldaps://i/cn=x"])))) =
          Except.ok (ε := Error) true := by
    decide +kernel
  obtain ⟨delegation, _, run⟩ := bind_eq_ok_iff.mp run
  obtain ⟨given, _, run⟩ := bind_eq_ok_iff.mp run
  obtain ⟨⟨service, start⟩, started, run⟩ := bind_eq_ok_iff.mp run
  obtain ⟨sized, refused⟩ := of_decide_eq_true (Except.ok.inj run)
  have begun := Reachable.atStart started
  obtain ⟨_, refusals, _⟩ := referrals_lead_on (begun.after _) (by decide +kernel)
  obtain ⟨nonempty, leads⟩ := refusals _ _ _ refused
  exact ⟨_, service, _, given, _, rfl, begun.after _, sized, refused, rfl, nonempty, leads⟩

end Service

end Directory
