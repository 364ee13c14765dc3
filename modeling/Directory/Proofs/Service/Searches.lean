import Directory.Proofs.Agent.Search
import Directory.Proofs.Schema.DelegationClass
import Directory.Proofs.Service.Conformance
import Directory.Proofs.Service.Trees

namespace Directory

/-! # Searches account for their scope

Every stored entry in the scope of a search is found, or does not meet the filter, or is reported
as a delegation, or lies below one that is.  Nothing else is found or reported, and everything is
in the order of the store. -/

/-- A reference bears the name of a delegation and has the URL of each of its `ref` values. -/
structure Entry.RefersBy (entry : Entry) (reference : SearchReference) : Prop where
  named : reference.dn = entry.dn
  urls : List.Forall₂
    (fun value url => ∃ parsed, LdapUrl.parse value = .ok parsed ∧ url = parsed.text)
    (entry.values Entry.refAttribute) reference.urls

/-- One reference for each delegation, in order, or the mark that some were left out. -/
structure SearchResult.TellsOf (result : SearchResult) (mode : ReferralMode)
    (delegations : List Entry) : Prop where
  thrown : mode = .throw →
    List.Forall₂ Entry.RefersBy delegations result.references ∧ result.isPartial = false
  ignored : mode = .ignore →
    result.references = [] ∧ (result.isPartial = true ↔ delegations ≠ [])

/-- Every `ref` value of a delegation is a URL. -/
def Entry.HasUsableRefs (entry : Entry) : Prop :=
  entry.isReferral = true →
    ∀ value ∈ entry.values Entry.refAttribute, (DelegationTarget.ofRef value).isOk = true

theorem DelegationTarget.exists_url_of_ofRef {value : Text} {target : DelegationTarget}
    (read : ofRef value = .ok target) :
    ∃ parsed, LdapUrl.parse value = .ok parsed ∧ target.urlFor target.base = parsed.text := by
  obtain ⟨parsed, parses, same⟩ := bind_eq_ok_iff.mp read
  cases same
  exact ⟨parsed, parses, rfl⟩

/-- A delegation leads to the very names that its URLs hold. -/
theorem Entry.urls_reference (entry : Entry) : (Agent.reference entry).urls =
    entry.delegationTargets.map fun target => target.urlFor target.base := by
  have nothing : (entry.dn.relativeTo? entry.dn).getD [] = [] := by
    simp [Dn.relativeTo?, Dn.isAncestorOrSelfOf_refl]
  simp [Agent.reference, Delegation.ofEntry, Delegation.redirects, nothing, Dn.below,
    RedirectTarget.url, DelegationTarget.urlFor]

theorem Entry.forall₂_delegationTargets {entry : Entry} (usable : entry.HasUsableRefs)
    (referral : entry.isReferral = true) :
    List.Forall₂ (fun value target => DelegationTarget.ofRef value = .ok target)
      (entry.values refAttribute) entry.delegationTargets := by
  rw [delegationTargets]
  have readable := usable referral
  generalize entry.values refAttribute = values at readable ⊢
  induction values with
  | nil => exact .nil
  | cons value rest ih =>
    have tail := ih fun other listed => readable other (List.mem_cons_of_mem _ listed)
    cases read : DelegationTarget.ofRef value with
    | error refusal =>
      have first := readable value List.mem_cons_self
      rw [read] at first
      contradiction
    | ok target =>
      rw [List.filterMap_cons, read]
      exact .cons read tail

theorem Entry.refersBy_reference {entry : Entry} (usable : entry.HasUsableRefs)
    (referral : entry.isReferral = true) : entry.RefersBy (Agent.reference entry) := by
  refine ⟨rfl, ?_⟩
  rw [urls_reference, List.forall₂_map_right_iff]
  exact (forall₂_delegationTargets usable referral).imp fun _ _ read =>
    DelegationTarget.exists_url_of_ofRef read

theorem Agent.tellsOf_reported {mode : ReferralMode} {delegations found : List Entry}
    (referrals : ∀ entry ∈ delegations, entry.isReferral = true ∧ entry.HasUsableRefs) :
    (reported mode delegations found).TellsOf mode delegations := by
  constructor
  · rintro rfl
    refine ⟨List.forall₂_map_right_iff.mpr (List.forall₂_same.mpr fun entry listed => ?_), rfl⟩
    obtain ⟨referral, usable⟩ := referrals entry listed
    exact Entry.refersBy_reference usable referral
  · rintro rfl
    exact ⟨rfl, by simp [reported]⟩

theorem Agent.exists_stored_of_proceed {agent : Agent} {kind : OperationKind} {mode : ReferralMode}
    {partition : Partition} {dn : Dn} (proceeds : agent.classify kind mode partition dn = .proceed) :
    ∃ entry, partition.store.find? dn = some entry := by
  cases stored : partition.store.find? dn with
  | some entry => exact ⟨entry, rfl⟩
  | none =>
    simp only [classify, ReferralPolicy.classify, stored] at proceeds
    cases mode <;> cases above : (partition.walk dn).delegation? <;>
      simp [Outcome.decide, ReferralMode.managesDsaIt, Delegation.outcome, above] at proceeds

namespace Service

variable {config : Config} {service : Service} {contexts : NamingContexts}

theorem Reachable.hasUsableRefs (reached : Reachable config service contexts) :
    ∀ partition ∈ contexts.partitions, ∀ entry ∈ partition.store.values, entry.HasUsableRefs := by
  refine reached.forall_stored (fun entry origin same usable => ?_) fun entry accepted => ?_
  · obtain ⟨dn, attributes⟩ := entry
    obtain rfl : attributes = origin.attributes := same.attributes
    exact usable
  · intro referral value listed
    exact Schema.usable_of_validate accepted referral listed

/-- A search that goes on finds an entry at its base.  Under a caller who manages delegations it
returns what meets the filter in its scope.  Otherwise the outermost delegations below the base
are told of and hide what lies below them; and below a base that is itself a delegation nothing
is seen. -/
theorem search_accounts_for_scope {given base : Dn} {partition : Partition} {mode : ReferralMode}
    (reached : Reachable config service contexts)
    (normalized : service.agent.schema.normalizeDn given = .ok base)
    (covered : contexts.resolve? base = some partition)
    (proceeds : service.agent.classify .search mode partition base = .proceed)
    (plain : partition.store.HasPlainNames) (basePlain : base.HasPlainTypes)
    (scope : SearchScope) (filter : Filter) :
    ∃ top result, partition.store.find? base = some top ∧
      service.agent.search contexts given scope filter mode = .ok result ∧
      (mode = .manageDsaIt →
        result.entries = (partition.store.inScope scope base).filter
            (filter.holds service.agent.schema) ∧
          result.references = [] ∧ result.isPartial = false) ∧
      (mode ≠ .manageDsaIt → top.isReferral = false →
        result.entries = (Agent.undelegated base (partition.store.inScope scope base)).filter
            (filter.holds service.agent.schema) ∧
          result.TellsOf mode (Agent.outermost base (partition.store.inScope scope base))) ∧
      (mode ≠ .manageDsaIt → top.isReferral = true →
        result.entries = (partition.store.inScope scope base).filter
            (fun entry => filter.holds service.agent.schema entry && entry.dn == base) ∧
          result.TellsOf mode (if scope = .base then [] else [top])) := by
  have listed := (NamingContexts.mem_of_resolve? covered).1
  have filed := (reached.isFiled partition listed).2
  have usable := reached.hasUsableRefs partition listed
  obtain ⟨top, stored⟩ := Agent.exists_stored_of_proceed proceeds
  have search : service.agent.search contexts given scope filter mode = .ok
      (Agent.searchStore service.agent.schema partition.store base scope filter mode) := by
    simp only [Agent.search, bind_eq_ok_iff]
    exact ⟨base, normalized, partition, Agent.covering_eq_ok_iff.mpr covered, (),
      Outcome.result_eq_ok_iff.mpr proceeds, rfl⟩
  refine ⟨top, _, stored, search, ?_, fun unmanaged entry => ?_, fun unmanaged referral => ?_⟩
  · rintro rfl
    rw [Agent.searchStore_of_managed filed plain basePlain]
    exact ⟨rfl, rfl, rfl⟩
  · have isEntry : ∀ other, partition.store.find? base = some other → other.isReferral = false := by
      intro other found
      cases stored.symm.trans found
      exact entry
    rw [Agent.searchStore_of_entry filed plain basePlain unmanaged isEntry rfl]
    refine ⟨Agent.entries_reported, Agent.tellsOf_reported fun point isTop => ?_⟩
    obtain ⟨inside, referral, _⟩ := (Agent.mem_outermost_iff.mp isTop).1
    exact ⟨referral, usable point (List.mem_filter.mp inside).1⟩
  · rw [Agent.searchStore_of_delegation filed plain basePlain unmanaged stored referral]
    refine ⟨Agent.entries_reported, Agent.tellsOf_reported fun point isTop => ?_⟩
    split at isTop
    · contradiction
    · cases List.mem_singleton.mp isTop
      exact ⟨referral, usable top (KeyTable.mem_values_iff.mpr ⟨_, stored⟩)⟩

/-- A delegation below another one is neither found nor told of, and an entry that does not meet
the filter is passed over. -/
theorem search_accounts_for_scope_nested :
    ∃ (service : Service) (contexts : NamingContexts) (given base : Dn) (partition : Partition)
      (result : SearchResult),
      Reachable (.single "p" "o=a" [("objectClass", ["organization"]), ("o", ["a"])]) service
        contexts ∧
      service.agent.schema.normalizeDn given = .ok base ∧
      contexts.resolve? base = some partition ∧
      service.agent.classify .search .throw partition base = .proceed ∧
      partition.store.HasPlainNames ∧ base.HasPlainTypes ∧
      service.agent.search contexts given .subtree (.not (.equal "cn" "y")) .throw = .ok result ∧
      result.entries.map (·.dn.text) = (["o=a", "cn=z,o=a"] : List Text) ∧
      (Agent.outermost base (partition.store.inScope .subtree base)).map (·.dn.text) =
        (["ou=r,o=a"] : List Text) ∧
      result.TellsOf .throw (Agent.outermost base (partition.store.inScope .subtree base)) := by
  have run : (do
      let given ← Dn.parse "o=a"
      let other ← Dn.parse "cn=y,o=a"
      let found ← Dn.parse "cn=z,o=a"
      let delegation ← Dn.parse "ou=r,o=a"
      let hidden ← Dn.parse "cn=h,ou=r,o=a"
      let nested ← Dn.parse "ou=n,ou=r,o=a"
      let built ← ofConfig
        (.single "p" "o=a" [("objectClass", ["organization"]), ("o", ["a"])])
      let contexts := built.1.after built.2 [
        .seed (.ofValues other [("objectClass", ["person"]), ("cn", ["y"]), ("sn", ["s"])]),
        .seed (.ofValues found [("objectClass", ["person"]), ("cn", ["z"]), ("sn", ["s"])]),
        .seed (.ofValues delegation [("objectClass", ["referral", "extensibleObject"]),
          ("ou", ["r"]), ("ref", ["ldap://h/o=b", "ldap://i/o=c"])]),
        .seed (.ofValues hidden [("objectClass", ["person"]), ("cn", ["h"]), ("sn", ["s"])]),
        .seed (.ofValues nested [("objectClass", ["referral", "extensibleObject"]),
          ("ou", ["n"]), ("ref", ["ldap://j/o=d"])])]
      let base ← built.1.agent.schema.normalizeDn given
      let partition ← Agent.covering contexts base
      Except.ok (
        decide (built.1.agent.schema.HasPlainNames ∧
          built.1.agent.classify .search .throw partition base = .proceed ∧
          ∀ top ∈ partition.store.find? base, top.isReferral = false),
        ((Agent.undelegated base (partition.store.inScope .subtree base)).filter
          ((Filter.not (.equal "cn" "y")).holds built.1.agent.schema)).map (·.dn.text),
        (Agent.outermost base (partition.store.inScope .subtree base)).map (·.dn.text))) =
          Except.ok (ε := Error) (true, (["o=a", "cn=z,o=a"] : List Text),
            (["ou=r,o=a"] : List Text)) := by
    decide +kernel
  obtain ⟨given, _, run⟩ := bind_eq_ok_iff.mp run
  obtain ⟨other, _, run⟩ := bind_eq_ok_iff.mp run
  obtain ⟨found, _, run⟩ := bind_eq_ok_iff.mp run
  obtain ⟨delegation, _, run⟩ := bind_eq_ok_iff.mp run
  obtain ⟨hidden, _, run⟩ := bind_eq_ok_iff.mp run
  obtain ⟨nested, _, run⟩ := bind_eq_ok_iff.mp run
  obtain ⟨⟨service, start⟩, started, run⟩ := bind_eq_ok_iff.mp run
  obtain ⟨base, normalized, run⟩ := bind_eq_ok_iff.mp run
  obtain ⟨partition, isCovered, run⟩ := bind_eq_ok_iff.mp run
  simp only [Except.ok.injEq, Prod.mk.injEq, decide_eq_true_eq] at run
  obtain ⟨⟨named, proceeds, isEntry⟩, entries, points⟩ := run
  have begun := Reachable.atStart started
  have covered := Agent.covering_eq_ok_iff.mp isCovered
  have plain := (begun.after _).hasPlainNames named partition
    (NamingContexts.mem_of_resolve? covered).1
  have basePlain := Schema.hasPlainTypes_of_normalizeDn named normalized
  obtain ⟨top, result, stored, search, _, outside, _⟩ := search_accounts_for_scope (begun.after _)
    normalized covered proceeds plain basePlain .subtree (.not (.equal "cn" "y"))
  obtain ⟨same, tells⟩ := outside (by decide) (isEntry top stored)
  exact ⟨service, _, given, base, partition, result, begun.after _, normalized, covered, proceeds,
    plain, basePlain, search, by rw [same, entries], points, tells⟩

/-- The key of `1.2.3=b,o=a` starts with that of `x=1,o=a` where the type `1.2.3` is called
`x=1,cn`, and a search of the one finds the other, which does not lie below it. -/
theorem search_reaches_beyond_scope :
    ∃ (config : Config) (service : Service) (contexts : NamingContexts) (given base : Dn)
      (partition : Partition) (result : SearchResult),
      Reachable config service contexts ∧
      service.agent.schema.normalizeDn given = .ok base ∧
      contexts.resolve? base = some partition ∧
      service.agent.classify .search .manageDsaIt partition base = .proceed ∧
      service.agent.search contexts given .subtree .everything .manageDsaIt = .ok result ∧
      ∃ entry ∈ result.entries, base.isAncestorOrSelfOf entry.dn = false := by
  have run : (do
      let given ← Dn.parse "x=1,o=a"
      let odd ← Dn.parse "1.2.3=b,o=a"
      let built ← ofConfig
        (.oddlyNamed [("objectClass", ["organization"]), ("o", ["a"])])
      let contexts := built.1.after built.2 [
        .seed (.ofValues given [("objectClass", ["organization", "extensibleObject"]),
          ("x", ["1"]), ("o", ["1"])]),
        .seed (.ofValues odd [("objectClass", ["organization", "extensibleObject"]),
          ("1.2.3", ["b"]), ("o", ["b"])])]
      let base ← built.1.agent.schema.normalizeDn given
      let partition ← Agent.covering contexts base
      let result ← built.1.agent.search contexts given .subtree .everything .manageDsaIt
      Except.ok (decide (built.1.agent.classify .search .manageDsaIt partition base = .proceed ∧
        ∃ entry ∈ result.entries, base.isAncestorOrSelfOf entry.dn = false))) =
          Except.ok (ε := Error) true := by
    decide +kernel
  obtain ⟨given, _, run⟩ := bind_eq_ok_iff.mp run
  obtain ⟨odd, _, run⟩ := bind_eq_ok_iff.mp run
  obtain ⟨⟨service, start⟩, started, run⟩ := bind_eq_ok_iff.mp run
  obtain ⟨base, normalized, run⟩ := bind_eq_ok_iff.mp run
  obtain ⟨partition, covered, run⟩ := bind_eq_ok_iff.mp run
  obtain ⟨result, search, run⟩ := bind_eq_ok_iff.mp run
  obtain ⟨proceeds, beyond⟩ := of_decide_eq_true (Except.ok.inj run)
  exact ⟨_, service, _, given, base, partition, result, (Reachable.atStart started).after _,
    normalized, Agent.covering_eq_ok_iff.mp covered, proceeds, search, beyond⟩

end Service

end Directory
