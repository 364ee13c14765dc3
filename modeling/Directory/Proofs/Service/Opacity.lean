import Directory.Proofs.Referral.HiddenTrees
import Directory.Proofs.Service.Trees

namespace Directory

/-! # Delegated trees are opaque

Whoever reads without managing delegations cannot tell two states of a service apart that differ
in hidden entries only. -/

namespace NamingContexts

variable {left right : NamingContexts}

def AgreeOutside (left right : NamingContexts) : Prop :=
  ∀ ours ∈ left.partitions, ∀ theirs ∈ right.partitions, ours.id = theirs.id →
    ours.store.AgreeOutside theirs.store

theorem AgreeOutside.of_lists
    (alike : ∀ ours ∈ left.partitions, ∀ theirs ∈ right.partitions,
      ours.store.ListAlike theirs.store) : left.AgreeOutside right :=
  fun ours listed theirs otherListed _ => (alike ours listed theirs otherListed).agreeOutside

/-- Every name is covered in neither, or by partitions that differ in hidden entries only. -/
def Resemble (left right : NamingContexts) : Prop :=
  ∀ dn, (left.resolve? dn = none ∧ right.resolve? dn = none) ∨
    ∃ ours theirs, left.resolve? dn = some ours ∧ right.resolve? dn = some theirs ∧
      ours.Resembles theirs

theorem resolve?_map_eq (contexts : NamingContexts) (dn : Dn) :
    (contexts.resolve? dn).map (fun partition => (partition.id, partition.suffix)) =
      contexts.frame.find? fun place => place.2.isAncestorOrSelfOf dn := by
  rw [resolve?, frame, List.find?_map]
  rfl

theorem resolve?_cases (same : left.frame = right.frame) (dn : Dn) :
    (left.resolve? dn = none ∧ right.resolve? dn = none) ∨
      ∃ ours theirs, left.resolve? dn = some ours ∧ right.resolve? dn = some theirs ∧
        ours.id = theirs.id ∧ ours.suffix = theirs.suffix := by
  have places := resolve?_map_eq left dn
  rw [same, ← resolve?_map_eq right dn] at places
  cases ours : left.resolve? dn with
  | none =>
    rw [ours, eq_comm, Option.map_none, Option.map_eq_none_iff] at places
    exact .inl ⟨rfl, places⟩
  | some partition =>
    rw [ours, eq_comm, Option.map_some, Option.map_eq_some_iff] at places
    obtain ⟨other, theirs, place⟩ := places
    obtain ⟨sameId, sameSuffix⟩ := Prod.mk.inj place
    exact .inr ⟨partition, other, rfl, theirs, sameId.symm, sameSuffix.symm⟩

end NamingContexts

namespace Agent

variable {agent : Agent} {left right : NamingContexts} {mode : ReferralMode} {given : Dn}

/-- An operation that looks at a name, its partition and its classification, and then at nothing
that is hidden. -/
theorem classified_eq {α : Type} {next : Partition → Dn → Except Error α} {kind : OperationKind}
    (alike : left.Resemble right) (unmanaged : mode ≠ .manageDsaIt)
    (plain : ∀ dn, agent.schema.normalizeDn given = .ok dn → dn.HasPlainTypes)
    (same : ∀ dn ours theirs, dn.HasPlainTypes → ours.Resembles theirs → ¬ ours.store.Hides dn →
      next ours dn = next theirs dn) :
    (do
      let dn ← agent.schema.normalizeDn given
      let partition ← covering left dn
      (agent.classify kind mode partition dn).result dn
      next partition dn) =
    (do
      let dn ← agent.schema.normalizeDn given
      let partition ← covering right dn
      (agent.classify kind mode partition dn).result dn
      next partition dn) := by
  cases normalized : agent.schema.normalizeDn given with
  | error refusal => rfl
  | ok dn =>
    rcases alike dn with ⟨ours, theirs⟩ | ⟨ours, theirs, oursCovers, theirsCovers, resembles⟩
    · show (covering left dn >>= fun _ => _) = (covering right dn >>= fun _ => _)
      rw [covering, covering, ours, theirs]
    · have dnPlain := plain dn normalized
      show (covering left dn >>= fun _ => _) = (covering right dn >>= fun _ => _)
      rw [covering_eq_ok_iff.mpr oursCovers, covering_eq_ok_iff.mpr theirsCovers]
      exact resembles.classify_bind_eq dnPlain unmanaged (same dn ours theirs dnPlain resembles)

theorem read_eq (alike : left.Resemble right) (unmanaged : mode ≠ .manageDsaIt)
    (plain : ∀ dn, agent.schema.normalizeDn given = .ok dn → dn.HasPlainTypes)
    (kind : OperationKind) : agent.read left kind given mode = agent.read right kind given mode :=
  classified_eq alike unmanaged plain fun dn ours theirs dnPlain resembles clear => by
    rw [existing, existing, resembles.find?_eq dnPlain clear]

theorem search_eq (alike : left.Resemble right) (unmanaged : mode ≠ .manageDsaIt)
    (plain : ∀ dn, agent.schema.normalizeDn given = .ok dn → dn.HasPlainTypes)
    (scope : SearchScope) (filter : Filter) :
    agent.search left given scope filter mode = agent.search right given scope filter mode :=
  classified_eq alike unmanaged plain fun dn ours theirs dnPlain resembles clear => by
    rw [resembles.searchStore_eq dnPlain unmanaged clear]

theorem answer_eq (alike : left.Resemble right) (unmanaged : mode ≠ .manageDsaIt)
    {request : Request} (reads : request.kind.isWrite = false)
    (plain : ∀ dn, agent.schema.normalizeDn request.target = .ok dn → dn.HasPlainTypes) :
    (agent.answer left request mode).1 = (agent.answer right request mode).1 := by
  cases request with
  | add | modify | delete | move => contradiction
  | search base scope filter =>
    have same : agent.search left base scope filter mode =
      agent.search right base scope filter mode := search_eq alike unmanaged plain scope filter
    simp only [answer, same]
  | compare dn attr value =>
    have same : agent.read left .compare dn mode = agent.read right .compare dn mode :=
      read_eq alike unmanaged plain .compare
    simp only [answer, compare, same]
  | lookup dn =>
    have same : agent.read left .lookup dn mode = agent.read right .lookup dn mode :=
      read_eq alike unmanaged plain .lookup
    simp only [answer, lookup, same]
  | «exists» dn =>
    have same : agent.read left .exists dn mode = agent.read right .exists dn mode :=
      read_eq alike unmanaged plain .exists
    simp only [answer, exists?, same]

end Agent

theorem Request.Becomes.eq_of_reads {given passed : Request} (becomes : given.Becomes passed)
    (reads : given.kind.isWrite = false) : passed = given := by
  cases becomes with
  | unchanged => rfl
  | add same => contradiction
  | modify single => contradiction

namespace Service

variable {config : Config} {service : Service} {left right : NamingContexts}

theorem Reachable.resemble (leftReached : Reachable config service left)
    (rightReached : Reachable config service right) (agree : left.AgreeOutside right)
    (leftPlain : left.HasPlainNames) (rightPlain : right.HasPlainNames) : left.Resemble right := by
  intro dn
  refine (NamingContexts.resolve?_cases (leftReached.frame_eq rightReached) dn).imp_right ?_
  intro ⟨ours, theirs, oursCovers, theirsCovers, sameId, sameSuffix⟩
  have listed := (NamingContexts.mem_of_resolve? oursCovers).1
  have otherListed := (NamingContexts.mem_of_resolve? theirsCovers).1
  obtain ⟨named, filed⟩ := leftReached.isFiled ours listed
  exact ⟨ours, theirs, oursCovers, theirsCovers, named, sameSuffix, filed,
    (rightReached.isFiled theirs otherListed).2, leftPlain ours listed,
    rightPlain theirs otherListed, agree ours listed theirs otherListed sameId⟩

/-- In two states that differ in hidden entries only, every read gets the same answer from a
service, or the same refusal, unless the caller manages delegations. -/
theorem reads_ignore_hidden_entries (leftReached : Reachable config service left)
    (rightReached : Reachable config service right) (agree : left.AgreeOutside right)
    (leftPlain : left.HasPlainNames) (rightPlain : right.HasPlainNames) (context : Context)
    (reads : context.request.kind.isWrite = false) (unmanaged : context.mode ≠ .manageDsaIt)
    (plain : ∀ dn, service.agent.schema.normalizeDn context.request.target = .ok dn →
      dn.HasPlainTypes) (now : Instant) :
    (service.execute now left context).1.1 = (service.execute now right context).1.1 := by
  have alike := leftReached.resemble rightReached agree leftPlain rightPlain
  obtain ⟨refusal, refused⟩ | ⟨passed, becomes, answers⟩ := service.execute_eq_cases now context
  · rw [refused, refused]
  · rw [answers, answers, becomes.request.eq_of_reads reads, becomes.mode]
    exact Agent.answer_eq alike unmanaged reads plain

/-- A search of a delegation that is read as data, with and without an entry below it. -/
theorem reads_ignore_hidden_entries_below_base :
    ∃ (config : Config) (service : Service) (left right : NamingContexts) (context : Context),
      Reachable config service left ∧ Reachable config service right ∧
      config.referral.targetReferralAsData = [.search] ∧ context.mode = .throw ∧
      context.request.kind = .search ∧ left.AgreeOutside right ∧
      left.entryCount = 2 ∧ right.entryCount = 3 ∧
      (service.execute ⟨2024, 1, 1, 0, 0, 0⟩ left context).1.1.isOk = true ∧
      (service.execute ⟨2024, 1, 1, 0, 0, 0⟩ left context).1.1 =
        (service.execute ⟨2024, 1, 1, 0, 0, 0⟩ right context).1.1 := by
  have run : (do
      let delegation ← Dn.parse "ou=r,o=a"
      let hidden ← Dn.parse "cn=h,ou=r,o=a"
      let built ← ofConfig
        { Config.single "p" "o=a" [("objectClass", ["organization"]), ("o", ["a"])] with
          referral := ⟨[.search]⟩ }
      let left := built.1.after built.2 [
        .seed (.ofValues delegation [("objectClass", ["referral", "extensibleObject"]),
          ("ou", ["r"]), ("ref", ["ldap://h/o=b"])])]
      let right := built.1.after left [
        .seed (.ofValues hidden [("objectClass", ["person"]), ("cn", ["h"]), ("sn", ["s"])])]
      Except.ok (decide (built.1.agent.schema.HasPlainNames ∧
        (∀ ours ∈ left.partitions, ∀ theirs ∈ right.partitions,
          ours.store.ListAlike theirs.store) ∧
        left.entryCount = 2 ∧ right.entryCount = 3 ∧
        (built.1.execute ⟨2024, 1, 1, 0, 0, 0⟩ left
          ⟨.search delegation .subtree .everything, .throw, none⟩).1.1.isOk = true))) =
          Except.ok (ε := Error) true := by
    decide +kernel
  obtain ⟨delegation, _, run⟩ := bind_eq_ok_iff.mp run
  obtain ⟨hidden, _, run⟩ := bind_eq_ok_iff.mp run
  obtain ⟨⟨service, start⟩, started, run⟩ := bind_eq_ok_iff.mp run
  obtain ⟨named, lists, fewer, more, answered⟩ := of_decide_eq_true (Except.ok.inj run)
  have begun := Reachable.atStart started
  have agree := NamingContexts.AgreeOutside.of_lists lists
  have same := reads_ignore_hidden_entries (begun.after _) ((begun.after _).after _) agree
    ((begun.after _).hasPlainNames named) (((begun.after _).after _).hasPlainNames named)
    ⟨.search delegation .subtree .everything, .throw, none⟩ rfl nofun
    (fun _ => Schema.hasPlainTypes_of_normalizeDn named) ⟨2024, 1, 1, 0, 0, 0⟩
  exact ⟨_, service, _, _, _, begun.after _, (begun.after _).after _, rfl, rfl, rfl, agree, fewer,
    more, answered, same⟩

/-- The key of `1.2.3=b,o=a` is that of `cn=b,x=1,o=a` where the type `1.2.3` is called `x=1,cn`,
so that the one name leads past the delegation `x=1,o=a` to the other's entry. -/
theorem lookup_finds_hidden_entry :
    ∃ (config : Config) (service : Service) (left right : NamingContexts) (context : Context),
      Reachable config service left ∧ Reachable config service right ∧ left.AgreeOutside right ∧
      context.request.kind = .lookup ∧ context.mode = .throw ∧
      (service.execute ⟨2024, 1, 1, 0, 0, 0⟩ left context).1.1 ≠
        (service.execute ⟨2024, 1, 1, 0, 0, 0⟩ right context).1.1 := by
  have run : (do
      let delegation ← Dn.parse "x=1,o=a"
      let hidden ← Dn.parse "cn=b,x=1,o=a"
      let odd ← Dn.parse "1.2.3=b,o=a"
      let built ← ofConfig
        (.oddlyNamed [("objectClass", ["organization"]), ("o", ["a"])])
      let left := built.1.after built.2 [
        .seed (.ofValues delegation [("objectClass", ["referral", "extensibleObject"]),
          ("x", ["1"]), ("ref", ["ldap://h/o=b"])])]
      let right := built.1.after left [
        .seed (.ofValues hidden [("objectClass", ["organization", "extensibleObject"]),
          ("cn", ["b"]), ("o", ["b"])])]
      Except.ok (decide (
        (∀ ours ∈ left.partitions, ∀ theirs ∈ right.partitions,
          ours.store.ListAlike theirs.store) ∧
        (built.1.execute ⟨2024, 1, 1, 0, 0, 0⟩ left ⟨.lookup odd, .throw, none⟩).1.1 ≠
          (built.1.execute ⟨2024, 1, 1, 0, 0, 0⟩ right ⟨.lookup odd, .throw, none⟩).1.1))) =
          Except.ok (ε := Error) true := by
    decide +kernel
  obtain ⟨delegation, _, run⟩ := bind_eq_ok_iff.mp run
  obtain ⟨hidden, _, run⟩ := bind_eq_ok_iff.mp run
  obtain ⟨odd, _, run⟩ := bind_eq_ok_iff.mp run
  obtain ⟨⟨service, start⟩, started, run⟩ := bind_eq_ok_iff.mp run
  obtain ⟨lists, differ⟩ := of_decide_eq_true (Except.ok.inj run)
  have begun := Reachable.atStart started
  exact ⟨_, service, _, _, ⟨.lookup odd, .throw, none⟩, begun.after _, (begun.after _).after _,
    .of_lists lists, rfl, rfl, differ⟩

end Service

end Directory
