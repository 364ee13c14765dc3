import Directory.Proofs.Partition.Scopes
import Directory.Proofs.Service.Trees
import Mathlib.Data.List.Forall2

namespace Directory

/-! # What a service leaves as it is

A read leaves every partition as it is, and so does whatever is refused.  A write that is carried
out changes entries at and below the name it addresses and, where it moves an entry, at and below
the new name.  The store tells by keys what lies there, so this needs names whose compared types
hold no equals sign. -/

/-- The names at and below which a request changes entries. -/
inductive Agent.Reaches (agent : Agent) : Request → Dn → Prop where
  | addressed {request : Request} {dn : Dn}
      (normalized : agent.schema.normalizeDn request.target = .ok dn) : Reaches agent request dn
  | moved {given dn : Dn} {givenSuperior? superior? : Option Dn} {givenRdn? rdn? : Option Rdn}
      {deleteOld : Bool} {old : Rdn} {above : List Rdn}
      (normalized : agent.schema.normalizeDn given = .ok dn)
      (superiorNormalized : givenSuperior?.mapM agent.schema.normalizeDn = .ok superior?)
      (rdnNormalized : givenRdn?.mapM agent.schema.normalizeRdn = .ok rdn?)
      (named : dn.rdns = old :: above) :
      Reaches agent (.move given givenSuperior? givenRdn? deleteOld)
        ((superior?.getD ⟨above⟩).child (rdn?.getD old))

/-- Two states have the same partitions, and in each the same entries at the names that a
property holds of. -/
def NamingContexts.AgreeOn (left right : NamingContexts) (holds : Dn → Prop) : Prop :=
  List.Forall₂
    (fun ours theirs : Partition => ours.id = theirs.id ∧ ours.suffix = theirs.suffix ∧
      ∀ entry : Entry, holds entry.dn → (entry ∈ ours.store.values ↔ entry ∈ theirs.store.values))
    left.partitions right.partitions

namespace NamingContexts

variable {left right contexts after : NamingContexts} {partition : Partition}
  {write : Partition.Write} {holds weaker : Dn → Prop}

theorem AgreeOn.refl (contexts : NamingContexts) (holds : Dn → Prop) :
    contexts.AgreeOn contexts holds :=
  List.forall₂_same.mpr fun _ _ => ⟨rfl, rfl, fun _ _ => Iff.rfl⟩

theorem AgreeOn.mono (agree : left.AgreeOn right weaker) (implies : ∀ dn, holds dn → weaker dn) :
    left.AgreeOn right holds := by
  refine List.Forall₂.imp ?_ agree
  rintro ours theirs ⟨sameId, sameSuffix, shared⟩
  exact ⟨sameId, sameSuffix, fun entry isHeld => shared entry (implies entry.dn isHeld)⟩

theorem Performs.agreeOn (performed : contexts.Performs partition write after)
    (distinct : contexts.HasDistinctIds) (filed : partition.store.IsFiled partition.suffix) :
    contexts.AgreeOn after fun dn =>
      ∀ name ∈ write.names, ¬ name.storageKey <+: dn.storageKey := by
  rw [AgreeOn, performed.result, List.forall₂_map_right_iff, List.forall₂_same]
  intro other listed
  split
  · next same =>
    obtain rfl := distinct.eq_of_id listed performed.member (beq_iff_eq.mp same)
    refine ⟨rfl, rfl, fun entry outside => ?_⟩
    have filedAfter := Partition.isFiled_effect filed performed.admitted
    rw [filed.mem_values_iff, filedAfter.mem_values_iff,
      Partition.get?_effect_of_outside filed outside]
  · exact ⟨rfl, rfl, fun _ _ => Iff.rfl⟩

end NamingContexts

namespace Agent

variable {agent : Agent} {partition : Partition} {given passed request : Request}
  {write : Partition.Write}

theorem Prepares.exists_reached (prepared : agent.Prepares partition request write)
    (filed : partition.store.IsFiled partition.suffix) {name : Dn} (named : name ∈ write.names) :
    ∃ target, agent.Reaches request target ∧ target.storageKey = name.storageKey := by
  cases prepared with
  | add canonical accepted =>
    obtain ⟨dn, normalized, same⟩ := bind_eq_ok_iff.mp canonical
    cases same
    cases List.mem_singleton.mp named
    exact ⟨dn, .addressed normalized, rfl⟩
  | modify normalized stored changed accepted =>
    cases List.mem_singleton.mp named
    rw [Entry.dn_of_modified changed]
    exact ⟨_, .addressed normalized, (filed _ _ stored).keyed⟩
  | delete normalized =>
    cases List.mem_singleton.mp named
    exact ⟨_, .addressed normalized, rfl⟩
  | move normalized superiorNormalized rdnNormalized steps stored renames accepted =>
    rcases List.mem_cons.mp named with rfl | named
    · exact ⟨_, .addressed normalized, rfl⟩
    · cases List.mem_singleton.mp named
      rw [← renames, dn_renamed]
      exact ⟨_, .moved normalized superiorNormalized rdnNormalized steps, rfl⟩

theorem Reaches.of_becomes {target : Dn} (reaches : agent.Reaches passed target)
    (becomes : given.Becomes passed) : agent.Reaches given target := by
  cases becomes with
  | unchanged => exact reaches
  | add same =>
    cases reaches with
    | addressed normalized => exact .addressed (by rwa [Request.target, same] at normalized)
  | modify single =>
    cases reaches with
    | addressed normalized => exact .addressed normalized

theorem Reaches.hasPlainTypes {target : Dn} (reaches : agent.Reaches passed target)
    (named : agent.schema.HasPlainNames) : target.HasPlainTypes := by
  cases reaches with
  | addressed normalized => exact Schema.hasPlainTypes_of_normalizeDn named normalized
  | moved normalized superiorNormalized rdnNormalized steps =>
    exact Schema.hasPlainTypes_of_normalizeDn named
      (normalizeDn_target normalized superiorNormalized rdnNormalized steps)

end Agent

namespace Service

variable {config : Config} {service : Service} {contexts : NamingContexts}

theorem Reachable.hasDistinctIds (reached : Reachable config service contexts) :
    contexts.HasDistinctIds := by
  obtain ⟨opened, events, isOpened, rfl⟩ := reached.exists_run
  rw [NamingContexts.hasDistinctIds_iff, frame_after isOpened.distinct]
  exact NamingContexts.hasDistinctIds_iff.mp isOpened.distinct

/-- A request leaves the naming contexts as they are, or it is a write and is answered as carried
out, and then changes nothing outside of what it reaches. -/
theorem execute_cases (reached : Reachable config service contexts) (now : Instant)
    (context : Context) :
    (service.execute now contexts context).1.2 = contexts ∨
      context.request.kind.isWrite = true ∧
        (service.execute now contexts context).1.1 = .ok .done ∧
        contexts.AgreeOn (service.execute now contexts context).1.2 fun dn =>
          ∀ target, service.agent.Reaches context.request target →
            ¬ target.storageKey <+: dn.storageKey := by
  obtain ⟨refusal, refused⟩ | ⟨passed, becomes, answers⟩ := service.execute_eq_cases now context
  · exact .inl (by rw [refused])
  · rw [answers]
    refine (Agent.answer_cases reached.hasDistinctIds service.agent passed.request
      passed.mode).imp_right ?_
    rintro ⟨partition, write, answered, prepared, performed⟩
    have filed := (reached.isFiled partition performed.member).2
    refine ⟨becomes.request.kind_eq ▸ prepared.isWrite, answered, ?_⟩
    refine (performed.agreeOn reached.hasDistinctIds filed).mono fun dn outside name named => ?_
    obtain ⟨target, reaches, same⟩ := prepared.exists_reached filed named
    rw [← same]
    exact outside target (reaches.of_becomes becomes.request)

/-- Reads and refused operations leave the naming contexts as they are.  A write leaves what has
a key that starts with none of those of the names it reaches; where these names are plain, that is
all that has a plain name and does not lie at or below one of them. -/
theorem execute_changes_reached_only (reached : Reachable config service contexts) (now : Instant)
    (context : Context) :
    ((context.request.kind.isWrite = false ∨
        ∃ refusal, (service.execute now contexts context).1.1 = .error refusal) →
      (service.execute now contexts context).1.2 = contexts) ∧
    (∀ session command refusal, (service.run session now contexts command).1 = .error refusal →
      (service.run session now contexts command).2 = contexts) ∧
    contexts.AgreeOn (service.execute now contexts context).1.2 (fun dn =>
      ∀ target, service.agent.Reaches context.request target →
        ¬ target.storageKey <+: dn.storageKey) ∧
    ((∀ target, service.agent.Reaches context.request target → target.HasPlainTypes) →
      contexts.AgreeOn (service.execute now contexts context).1.2 fun dn =>
        dn.HasPlainTypes ∧ ∀ target, service.agent.Reaches context.request target →
          target.isAncestorOrSelfOf dn = false) := by
  have frame : contexts.AgreeOn (service.execute now contexts context).1.2 fun dn =>
      ∀ target, service.agent.Reaches context.request target →
        ¬ target.storageKey <+: dn.storageKey := by
    rcases execute_cases reached now context with same | ⟨_, _, agree⟩
    · rw [same]
      exact .refl contexts _
    · exact agree
  refine ⟨?_, fun session command refusal refused => ?_, frame, fun plain => ?_⟩
  · rintro (reads | ⟨refusal, refused⟩) <;>
      rcases execute_cases reached now context with same | ⟨writes, answered, _⟩
    · exact same
    · simp [reads] at writes
    · exact same
    · simp [refused] at answered
  · unfold run at refused ⊢
    cases read : command.request with
    | error _ => rfl
    | ok request =>
      simp only [read] at refused ⊢
      rcases execute_cases reached now ⟨request, session.mode, session.principal?⟩ with
        same | ⟨_, answered, _⟩
      · exact same
      · simp [refused] at answered
  · refine frame.mono fun dn ⟨dnPlain, outside⟩ target reaches starts => ?_
    have lies := (Dn.storageKey_isPrefix_iff (plain target reaches) dnPlain).mp starts
    simp [outside target reaches] at lies

/-- A tree that is renamed, beside an entry whose text begins like the tree's old and new names. -/
theorem execute_changes_reached_only_renamed :
    ∃ (service : Service) (contexts : NamingContexts) (context : Context) (beside : Dn),
      Reachable (.single "p" "o=a" [("objectClass", ["organization"]), ("o", ["a"])]) service
        contexts ∧
      context.request.kind = .move ∧ contexts.entryCount = 4 ∧ beside.text = "ou=bd,o=a" ∧
      (service.execute ⟨2024, 1, 1, 0, 0, 0⟩ contexts context).1.1 = .ok .done ∧
      (service.execute ⟨2024, 1, 1, 0, 0, 0⟩ contexts context).1.2 ≠ contexts ∧
      contexts.AgreeOn (service.execute ⟨2024, 1, 1, 0, 0, 0⟩ contexts context).1.2
        (· = beside) := by
  have run : (do
      let principal ← Dn.parse "o=a"
      let source ← Dn.parse "ou=b,o=a"
      let leaf ← Dn.parse "cn=c,ou=b,o=a"
      let beside ← Dn.parse "ou=bd,o=a"
      let rdn ← Rdn.parse "ou=bdd"
      let built ← ofConfig
        (.single "p" "o=a" [("objectClass", ["organization"]), ("o", ["a"])])
      let contexts := built.1.after built.2 [
        .seed (.ofValues source [("objectClass", ["organizationalUnit"]), ("ou", ["b"])]),
        .seed (.ofValues leaf [("objectClass", ["person"]), ("cn", ["c"]), ("sn", ["s"])]),
        .seed (.ofValues beside [("objectClass", ["organizationalUnit"]), ("ou", ["bd"])])]
      let context : Context := ⟨.move source none (some rdn) true, .throw, some principal⟩
      let dn ← built.1.agent.schema.normalizeDn source
      let step ← built.1.agent.schema.normalizeRdn rdn
      Except.ok (decide (built.1.agent.schema.HasPlainNames ∧ beside.HasPlainTypes ∧
        dn.isAncestorOrSelfOf beside = false ∧
        (Dn.child ⟨dn.rdns.tail⟩ step).isAncestorOrSelfOf beside = false ∧
        contexts.entryCount = 4 ∧ beside.text = "ou=bd,o=a" ∧
        (built.1.execute ⟨2024, 1, 1, 0, 0, 0⟩ contexts context).1.1 = .ok .done ∧
        (built.1.execute ⟨2024, 1, 1, 0, 0, 0⟩ contexts context).1.2 ≠ contexts))) =
          Except.ok (ε := Error) true := by
    decide +kernel
  obtain ⟨principal, _, run⟩ := bind_eq_ok_iff.mp run
  obtain ⟨source, _, run⟩ := bind_eq_ok_iff.mp run
  obtain ⟨leaf, _, run⟩ := bind_eq_ok_iff.mp run
  obtain ⟨beside, _, run⟩ := bind_eq_ok_iff.mp run
  obtain ⟨rdn, _, run⟩ := bind_eq_ok_iff.mp run
  obtain ⟨⟨service, start⟩, started, run⟩ := bind_eq_ok_iff.mp run
  obtain ⟨dn, normalized, run⟩ := bind_eq_ok_iff.mp run
  obtain ⟨step, stepNormalized, run⟩ := bind_eq_ok_iff.mp run
  obtain ⟨named, plain, outside, newOutside, sized, written, answered, changed⟩ :=
    of_decide_eq_true (Except.ok.inj run)
  have begun := Reachable.atStart started
  have allOutside : ∀ target, service.agent.Reaches (.move source none (some rdn) true) target →
      target.isAncestorOrSelfOf beside = false := by
    intro target reaches
    cases reaches with
    | addressed again =>
      cases normalized.symm.trans again
      exact outside
    | moved again superiorNormalized rdnNormalized steps =>
      cases normalized.symm.trans again
      cases superiorNormalized
      obtain ⟨other, stepAgain, same⟩ := bind_eq_ok_iff.mp rdnNormalized
      cases stepNormalized.symm.trans stepAgain
      cases same
      rwa [steps] at newOutside
  refine ⟨service, _, ⟨.move source none (some rdn) true, .throw, some principal⟩, beside,
    begun.after _, rfl, sized, written, answered, changed, ?_⟩
  obtain ⟨_, _, _, frame⟩ := execute_changes_reached_only (begun.after _) ⟨2024, 1, 1, 0, 0, 0⟩
    ⟨.move source none (some rdn) true, .throw, some principal⟩
  refine (frame fun target reaches => reaches.hasPlainTypes named).mono ?_
  rintro _ rfl
  exact ⟨plain, allOutside⟩

/-- The key of `1.2.3=b,o=a` is that of `cn=b,x=1,o=a` where the type `1.2.3` is called `x=1,cn`,
and who deletes the one name takes away the other's entry. -/
theorem delete_takes_other_entry :
    ∃ (config : Config) (service : Service) (contexts : NamingContexts) (context : Context)
      (entry : Entry) (dn : Dn),
      Reachable config service contexts ∧ context.request.kind = .delete ∧
      service.agent.schema.normalizeDn context.request.target = .ok dn ∧
      dn.isAncestorOrSelfOf entry.dn = false ∧
      (service.execute ⟨2024, 1, 1, 0, 0, 0⟩ contexts context).1.1 = .ok .done ∧
      (∃ partition ∈ contexts.partitions, entry ∈ partition.store.values) ∧
      ∀ partition ∈ (service.execute ⟨2024, 1, 1, 0, 0, 0⟩ contexts context).1.2.partitions,
        entry ∉ partition.store.values := by
  have run : (do
      let principal ← Dn.parse "o=a"
      let odd ← Dn.parse "1.2.3=b,o=a"
      let given ← Dn.parse "cn=b,x=1,o=a"
      let built ← ofConfig
        (.oddlyNamed [("objectClass", ["organization"]), ("o", ["a"])])
      let contexts := built.1.after built.2 [
        .seed (.ofValues odd [("objectClass", ["organization", "extensibleObject"]),
          ("1.2.3", ["b"]), ("o", ["b"])])]
      let partition ← Agent.covering contexts principal
      let dn ← built.1.agent.schema.normalizeDn given
      let entry ← Agent.existing partition dn
      let context : Context := ⟨.delete given, .throw, some principal⟩
      Except.ok (decide (dn.isAncestorOrSelfOf entry.dn = false ∧
        (built.1.execute ⟨2024, 1, 1, 0, 0, 0⟩ contexts context).1.1 = .ok .done ∧
        (∃ partition ∈ contexts.partitions, entry ∈ partition.store.values) ∧
        ∀ partition ∈ (built.1.execute ⟨2024, 1, 1, 0, 0, 0⟩ contexts context).1.2.partitions,
          entry ∉ partition.store.values))) = Except.ok (ε := Error) true := by
    decide +kernel
  obtain ⟨principal, _, run⟩ := bind_eq_ok_iff.mp run
  obtain ⟨odd, _, run⟩ := bind_eq_ok_iff.mp run
  obtain ⟨given, _, run⟩ := bind_eq_ok_iff.mp run
  obtain ⟨⟨service, start⟩, started, run⟩ := bind_eq_ok_iff.mp run
  obtain ⟨partition, _, run⟩ := bind_eq_ok_iff.mp run
  obtain ⟨dn, normalized, run⟩ := bind_eq_ok_iff.mp run
  obtain ⟨entry, _, run⟩ := bind_eq_ok_iff.mp run
  obtain ⟨beside, answered, stored, gone⟩ := of_decide_eq_true (Except.ok.inj run)
  exact ⟨_, service, _, ⟨.delete given, .throw, some principal⟩, entry, dn,
    (Reachable.atStart started).after _, rfl, normalized, beside, answered, stored, gone⟩

end Service

end Directory
