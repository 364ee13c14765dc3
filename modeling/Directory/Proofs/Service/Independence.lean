import Directory.Proofs.Partition.Independence
import Directory.Proofs.Service.Frames

namespace Directory

/-! # Independent requests

An add, a modify or a delete is planned and carried out by what is kept under the keys that the
key of its name starts with and those that start with it.  So where neither of two keys starts
with the other, the two requests do not notice each other. -/

/-- In either order two actions answer as they do alone and lead to the same state. -/
structure NamingContexts.Commute {α : Type} (contexts : NamingContexts)
    (first second : NamingContexts → α × NamingContexts) : Prop where
  firstAnswer : (first (second contexts).2).1 = (first contexts).1
  secondAnswer : (second (first contexts).2).1 = (second contexts).1
  state : (second (first contexts).2).2 = (first (second contexts).2).2

/-- The request changes a single entry where it is. -/
def OperationKind.IsSingle (kind : OperationKind) : Prop :=
  kind = .add ∨ kind = .modify ∨ kind = .delete

theorem NamingContexts.Commute.symm {α : Type} {contexts : NamingContexts}
    {first second : NamingContexts → α × NamingContexts} (commute : contexts.Commute first second) :
    contexts.Commute second first :=
  ⟨commute.secondAnswer, commute.firstAnswer, commute.state.symm⟩

namespace Agent

/-- How an agent plans a request that changes a single entry. -/
inductive Plans (agent : Agent) (mode : ReferralMode) :
    Request → (NamingContexts → Except Error Plan) → Prop where
  | add (given : Entry) :
      Plans agent mode (.add given) fun contexts => agent.planAdd contexts given mode
  | modify (given : Dn) (changes : List Modification) :
      Plans agent mode (.modify given changes) fun contexts =>
        agent.planModify contexts given changes mode
  | delete (given : Dn) :
      Plans agent mode (.delete given) fun contexts => agent.planDelete contexts given mode

/-- What is planned, if anything, is a write of a single entry under the key. -/
def SetsAt (planned : Except Error Plan) (key : Text) : Prop :=
  ∀ plan, planned = .ok plan → ∃ bound?, plan.write.Sets key bound?

variable {agent : Agent} {contexts left right : NamingContexts} {partition : Partition} {dn : Dn}
  {request : Request} {mode : ReferralMode} {plans : NamingContexts → Except Error Plan}
  {plan : Plan} {planned : Except Error Plan} {key other : Text}

theorem exists_plans (agent : Agent) (mode : ReferralMode) (single : request.kind.IsSingle) :
    ∃ plans, agent.Plans mode request plans := by
  cases request with
  | add given => exact ⟨_, .add given⟩
  | modify given changes => exact ⟨_, .modify given changes⟩
  | delete given => exact ⟨_, .delete given⟩
  | _ => simp [Request.kind, OperationKind.IsSingle] at single

theorem Plans.answer_eq (isPlan : agent.Plans mode request plans) (contexts : NamingContexts) :
    agent.answer contexts request mode = commit contexts (plans contexts) := by
  cases isPlan <;> rfl

theorem covering_bind_eq {α : Type} {ours theirs : Partition → Except Error α}
    (agree : left.AgreeAlong right key)
    (same : ∀ partition other : Partition, partition.AgreeAlong other key →
      ours partition = theirs other) :
    (covering left dn >>= ours) = (covering right dn >>= theirs) := by
  rcases agree.resolve?_cases dn with ⟨isOurs, isTheirs⟩ | ⟨_, _, isOurs, isTheirs, alike⟩
  · rw [covering, covering, isOurs, isTheirs]
    rfl
  · rw [covering_eq_ok_iff.mpr isOurs, covering_eq_ok_iff.mpr isTheirs]
    exact same _ _ alike

theorem classify_eq_of_agree {ours theirs : Partition}
    (agree : ours.AgreeAlong theirs dn.storageKey) (kind : OperationKind) :
    agent.classify kind mode ours dn = agent.classify kind mode theirs dn := by
  have lies := Dn.isAncestorOrSelfOf_refl dn
  rw [classify, classify, agree.store.find?_eq lies, agree.walk_eq lies]

theorem existing_eq_of_agree {ours theirs : Partition}
    (agree : ours.AgreeAlong theirs dn.storageKey) : existing ours dn = existing theirs dn := by
  rw [existing, existing, agree.store.find?_eq (Dn.isAncestorOrSelfOf_refl dn)]

theorem checkPlace_eq_of_agree {ours theirs : Partition}
    (agree : ours.AgreeAlong theirs dn.storageKey) :
    checkPlace mode ours dn = checkPlace mode theirs dn := by
  rw [checkPlace, checkPlace, agree.suffix]
  split
  · rfl
  · next parent isParent =>
    have lies := Dn.parent_isAncestorOrSelfOf isParent
    rw [agree.store.find?_eq lies, agree.walk_eq lies]

/-- A plan is the same in states that agree along the key of the name. -/
theorem Plans.eq_of_agree (isPlan : agent.Plans mode request plans)
    (normalized : agent.schema.normalizeDn request.target = .ok dn)
    (agree : left.AgreeAlong right dn.storageKey) : plans left = plans right := by
  cases isPlan with
  | add given =>
    have canonical : agent.canonicalEntry given =
        .ok { agent.schema.normalizeEntry given with dn } := by
      rw [canonicalEntry, show agent.schema.normalizeDn given.dn = .ok dn from normalized]
      rfl
    simp only [planAdd, canonical]
    refine covering_bind_eq agree fun ours theirs alike => ?_
    simp only [alike.store.holds_eq (Dn.isAncestorOrSelfOf_refl dn), checkPlace_eq_of_agree alike,
      alike.id]
  | modify given changes =>
    simp only [planModify, show agent.schema.normalizeDn given = .ok dn from normalized]
    refine covering_bind_eq agree fun ours theirs alike => ?_
    rw [classify_eq_of_agree alike, existing_eq_of_agree alike, alike.id]
  | delete given =>
    simp only [planDelete, show agent.schema.normalizeDn given = .ok dn from normalized]
    refine covering_bind_eq agree fun ours theirs alike => ?_
    rw [classify_eq_of_agree alike, alike.store.hasChildren_eq, alike.id]

theorem Plans.serves (isPlan : agent.Plans mode request plans) (made : plans contexts = .ok plan) :
    ∃ partition, plan.Serves agent contexts request partition := by
  cases isPlan with
  | add given => exact serves_planAdd made
  | modify given changes => exact serves_planModify made
  | delete given => exact serves_planDelete made

theorem Prepares.exists_sets {write : Partition.Write}
    (prepared : agent.Prepares partition request write) (single : request.kind.IsSingle)
    (filed : partition.store.IsFiled partition.suffix)
    (normalized : agent.schema.normalizeDn request.target = .ok dn) :
    ∃ bound?, write.Sets dn.storageKey bound? := by
  cases prepared with
  | add canonical accepted =>
    obtain ⟨_, again, same⟩ := bind_eq_ok_iff.mp canonical
    cases again.symm.trans normalized
    cases same
    exact ⟨_, .create _⟩
  | @modify _ _ _ before after again stored changed accepted =>
    cases again.symm.trans normalized
    have key : dn.storageKey = after.dn.storageKey := by
      rw [Entry.dn_of_modified changed]
      exact (filed _ _ stored).keyed
    rw [key]
    exact ⟨_, .update after⟩
  | delete again =>
    cases again.symm.trans normalized
    exact ⟨_, .delete dn⟩
  | move => simp [Request.kind, OperationKind.IsSingle] at single

theorem Plans.setsAt (isPlan : agent.Plans mode request plans) (single : request.kind.IsSingle)
    (filed : ∀ partition ∈ contexts.partitions, partition.store.IsFiled partition.suffix)
    (normalized : agent.schema.normalizeDn request.target = .ok dn) :
    SetsAt (plans contexts) dn.storageKey := by
  intro plan made
  obtain ⟨partition, serves⟩ := isPlan.serves made
  exact serves.prepared.exists_sets single (filed partition serves.member) normalized

theorem SetsAt.answer_eq (sets : SetsAt planned key) (agree : left.AgreeAlong right key) :
    (commit left planned).1 = (commit right planned).1 := by
  cases planned with
  | error refusal => rfl
  | ok plan =>
    obtain ⟨_, setsPlan⟩ := sets plan rfl
    simp only [commit, agree.answer_eq setsPlan]

theorem SetsAt.agreeAlong_commit (sets : SetsAt planned key) (distinct : contexts.HasDistinctIds)
    (apart : key.Apart other) : contexts.AgreeAlong (commit contexts planned).2 other := by
  cases planned with
  | error refusal => exact .refl contexts other
  | ok plan =>
    obtain ⟨_, setsPlan⟩ := sets plan rfl
    exact NamingContexts.agreeAlong_perform distinct setsPlan apart plan.partition

theorem commit_comm {first second : Except Error Plan} {firstKey secondKey : Text}
    (distinct : contexts.HasDistinctIds) (firstSets : SetsAt first firstKey)
    (secondSets : SetsAt second secondKey) (apart : firstKey.Apart secondKey) :
    (commit (commit contexts first).2 second).2 = (commit (commit contexts second).2 first).2 := by
  cases first with
  | error refusal => rfl
  | ok firstPlan =>
    cases second with
    | error refusal => rfl
    | ok secondPlan =>
      obtain ⟨_, setsFirst⟩ := firstSets firstPlan rfl
      obtain ⟨_, setsSecond⟩ := secondSets secondPlan rfl
      exact NamingContexts.perform_comm distinct setsFirst setsSecond apart firstPlan.partition
        secondPlan.partition

/-- Neither request changes what the other is planned by, so both are planned in either order as
they are alone. -/
theorem commute_answer {first second : Request} {firstMode secondMode : ReferralMode}
    {firstDn secondDn : Dn} (distinct : contexts.HasDistinctIds)
    (filed : ∀ partition ∈ contexts.partitions, partition.store.IsFiled partition.suffix)
    (firstSingle : first.kind.IsSingle) (secondSingle : second.kind.IsSingle)
    (firstNormalized : agent.schema.normalizeDn first.target = .ok firstDn)
    (secondNormalized : agent.schema.normalizeDn second.target = .ok secondDn)
    (apart : firstDn.storageKey.Apart secondDn.storageKey) :
    contexts.Commute (fun state => agent.answer state first firstMode)
      (fun state => agent.answer state second secondMode) := by
  obtain ⟨firstPlans, isFirst⟩ := agent.exists_plans firstMode firstSingle
  obtain ⟨secondPlans, isSecond⟩ := agent.exists_plans secondMode secondSingle
  have firstSets := isFirst.setsAt firstSingle filed firstNormalized
  have secondSets := isSecond.setsAt secondSingle filed secondNormalized
  have afterFirst := firstSets.agreeAlong_commit distinct apart
  have afterSecond := secondSets.agreeAlong_commit distinct apart.symm
  have firstAgain := isFirst.eq_of_agree firstNormalized afterSecond
  have secondAgain := isSecond.eq_of_agree secondNormalized afterFirst
  refine ⟨?_, ?_, ?_⟩ <;> simp only [isFirst.answer_eq, isSecond.answer_eq]
  · rw [← firstAgain]
    exact (firstSets.answer_eq afterSecond).symm
  · rw [← secondAgain]
    exact (secondSets.answer_eq afterFirst).symm
  · rw [← firstAgain, ← secondAgain]
    exact commit_comm distinct firstSets secondSets apart

end Agent

namespace Service

variable {config : Config} {service : Service} {contexts : NamingContexts}

theorem commute_of_refused {first second : NamingContexts → Except Error Response × NamingContexts}
    {refusal : Error} (refused : ∀ contexts, first contexts = (.error refusal, contexts)) :
    contexts.Commute first second := by
  constructor <;> simp only [refused]

theorem Reachable.commute_execute (reached : Reachable config service contexts) (now : Instant)
    {first second : Context} {firstDn secondDn : Dn} (firstSingle : first.request.kind.IsSingle)
    (secondSingle : second.request.kind.IsSingle)
    (firstNormalized : service.agent.schema.normalizeDn first.request.target = .ok firstDn)
    (secondNormalized : service.agent.schema.normalizeDn second.request.target = .ok secondDn)
    (apart : firstDn.storageKey.Apart secondDn.storageKey) :
    contexts.Commute (fun state => (service.execute now state first).1)
      (fun state => (service.execute now state second).1) := by
  rcases service.execute_eq_cases now first with
    ⟨_, refused⟩ | ⟨firstPassed, firstBecomes, firstAnswers⟩
  · exact commute_of_refused refused
  rcases service.execute_eq_cases now second with
    ⟨_, refused⟩ | ⟨secondPassed, secondBecomes, secondAnswers⟩
  · exact (commute_of_refused refused).symm
  simp only [firstAnswers, secondAnswers]
  rw [← firstBecomes.request.kind_eq] at firstSingle
  rw [← secondBecomes.request.kind_eq] at secondSingle
  rw [← firstBecomes.request.target_eq] at firstNormalized
  rw [← secondBecomes.request.target_eq] at secondNormalized
  exact Agent.commute_answer reached.hasDistinctIds (fun _ listed => (reached.isFiled _ listed).2)
    firstSingle secondSingle firstNormalized secondNormalized apart

/-- Requests on names apart are answered in either order as they are alone, and lead to the same
state.  Names are apart as kept if neither key starts with the other; where no compared type holds
an equals sign, that is to say that neither name lies at or below the other. -/
theorem independent_requests_commute (reached : Reachable config service contexts) (now : Instant)
    (first second : Context) {firstDn secondDn : Dn} (firstSingle : first.request.kind.IsSingle)
    (secondSingle : second.request.kind.IsSingle)
    (firstNormalized : service.agent.schema.normalizeDn first.request.target = .ok firstDn)
    (secondNormalized : service.agent.schema.normalizeDn second.request.target = .ok secondDn) :
    (firstDn.storageKey.Apart secondDn.storageKey →
      contexts.Commute (fun state => (service.execute now state first).1)
        (fun state => (service.execute now state second).1)) ∧
    (firstDn.HasPlainTypes → secondDn.HasPlainTypes →
      firstDn.isAncestorOrSelfOf secondDn = false → secondDn.isAncestorOrSelfOf firstDn = false →
      contexts.Commute (fun state => (service.execute now state first).1)
        (fun state => (service.execute now state second).1)) := by
  have commute : firstDn.storageKey.Apart secondDn.storageKey →
      contexts.Commute (fun state => (service.execute now state first).1)
        (fun state => (service.execute now state second).1) :=
    reached.commute_execute now firstSingle secondSingle firstNormalized secondNormalized
  refine ⟨commute, fun firstPlain secondPlain firstBeside secondBeside => ?_⟩
  exact commute (Dn.apart_of_plain firstPlain secondPlain firstBeside secondBeside)

/-- A unit gets a description while a person is added below its neighbour. -/
theorem independent_requests_commute_beside :
    ∃ (config : Config) (service : Service) (contexts : NamingContexts) (first second : Context)
      (firstDn secondDn : Dn),
      Reachable config service contexts ∧
      first.request.kind = .modify ∧ second.request.kind = .add ∧
      service.agent.schema.normalizeDn first.request.target = .ok firstDn ∧
      service.agent.schema.normalizeDn second.request.target = .ok secondDn ∧
      firstDn.storageKey.Apart secondDn.storageKey ∧ firstDn.HasPlainTypes ∧
      secondDn.HasPlainTypes ∧ firstDn.isAncestorOrSelfOf secondDn = false ∧
      secondDn.isAncestorOrSelfOf firstDn = false ∧
      (service.execute ⟨2024, 1, 1, 0, 0, 0⟩ contexts first).1.1 = .ok .done ∧
      (service.execute ⟨2024, 1, 1, 0, 0, 0⟩ contexts second).1.1 = .ok .done ∧
      contexts.Commute (fun state => (service.execute ⟨2024, 1, 1, 0, 0, 0⟩ state first).1)
        (fun state => (service.execute ⟨2024, 1, 1, 0, 0, 0⟩ state second).1) := by
  have run : (do
      let principal ← Dn.parse "o=a"
      let unit ← Dn.parse "OU=b,o=a"
      let neighbour ← Dn.parse "ou=bd,o=a"
      let person ← Dn.parse "cn=c,ou=bd,o=a"
      let built ← ofConfig
        (Config.single "p" "o=a" [("objectClass", ["organization"]), ("o", ["a"])])
      let contexts := built.1.after built.2 [
        .seed (.ofValues unit [("objectClass", ["organizationalUnit"]), ("ou", ["b"])]),
        .seed (.ofValues neighbour [("objectClass", ["organizationalUnit"]), ("ou", ["bd"])])]
      let firstDn ← built.1.agent.schema.normalizeDn unit
      let secondDn ← built.1.agent.schema.normalizeDn person
      Except.ok (decide (
        firstDn.storageKey.Apart secondDn.storageKey ∧ firstDn.HasPlainTypes ∧
        secondDn.HasPlainTypes ∧ firstDn.isAncestorOrSelfOf secondDn = false ∧
        secondDn.isAncestorOrSelfOf firstDn = false ∧
        (built.1.execute ⟨2024, 1, 1, 0, 0, 0⟩ contexts
          ⟨.modify unit [⟨.add, "description", ["d"]⟩], .throw, some principal⟩).1.1 = .ok .done ∧
        (built.1.execute ⟨2024, 1, 1, 0, 0, 0⟩ contexts
          ⟨.add (.ofValues person [("objectClass", ["person"]), ("cn", ["c"]), ("sn", ["s"])]),
            .manageDsaIt, some unit⟩).1.1 = .ok .done))) = Except.ok (ε := Error) true := by
    decide +kernel
  obtain ⟨principal, _, run⟩ := bind_eq_ok_iff.mp run
  obtain ⟨unit, _, run⟩ := bind_eq_ok_iff.mp run
  obtain ⟨neighbour, _, run⟩ := bind_eq_ok_iff.mp run
  obtain ⟨person, _, run⟩ := bind_eq_ok_iff.mp run
  obtain ⟨⟨service, start⟩, started, run⟩ := bind_eq_ok_iff.mp run
  obtain ⟨firstDn, firstNormalized, run⟩ := bind_eq_ok_iff.mp run
  obtain ⟨secondDn, secondNormalized, run⟩ := bind_eq_ok_iff.mp run
  obtain ⟨apart, firstPlain, secondPlain, firstBeside, secondBeside, firstDone, secondDone⟩ :=
    of_decide_eq_true (Except.ok.inj run)
  have reached := (Reachable.atStart started).after [
    .seed (.ofValues unit [("objectClass", ["organizationalUnit"]), ("ou", ["b"])]),
    .seed (.ofValues neighbour [("objectClass", ["organizationalUnit"]), ("ou", ["bd"])])]
  have commute := independent_requests_commute reached ⟨2024, 1, 1, 0, 0, 0⟩
    ⟨.modify unit [⟨.add, "description", ["d"]⟩], .throw, some principal⟩
    ⟨.add (.ofValues person [("objectClass", ["person"]), ("cn", ["c"]), ("sn", ["s"])]),
      .manageDsaIt, some unit⟩ (.inr (.inl rfl)) (.inl rfl) firstNormalized secondNormalized
  exact ⟨_, service, _, ⟨.modify unit [⟨.add, "description", ["d"]⟩], .throw, some principal⟩,
    ⟨.add (.ofValues person [("objectClass", ["person"]), ("cn", ["c"]), ("sn", ["s"])]),
      .manageDsaIt, some unit⟩, firstDn, secondDn, reached, rfl, rfl, firstNormalized,
    secondNormalized, apart, firstPlain, secondPlain, firstBeside, secondBeside, firstDone,
    secondDone, commute.2 firstPlain secondPlain firstBeside secondBeside⟩

/-- The key of `1.2.3=b,o=a` is that of `cn=b,x=1,o=a` where the type `1.2.3` is called `x=1,cn`,
and who deletes the one name is told that there is nothing, unless the other was added before. -/
theorem delete_notices_added_beside :
    ∃ (config : Config) (service : Service) (contexts : NamingContexts) (first second : Context)
      (firstDn secondDn : Dn),
      Reachable config service contexts ∧
      first.request.kind = .add ∧ second.request.kind = .delete ∧
      service.agent.schema.normalizeDn first.request.target = .ok firstDn ∧
      service.agent.schema.normalizeDn second.request.target = .ok secondDn ∧
      firstDn.isAncestorOrSelfOf secondDn = false ∧
      secondDn.isAncestorOrSelfOf firstDn = false ∧
      (service.execute ⟨2024, 1, 1, 0, 0, 0⟩ contexts second).1.1 =
        .error (.noSuchObject "cn=b,x=1,o=a") ∧
      (service.execute ⟨2024, 1, 1, 0, 0, 0⟩
        (service.execute ⟨2024, 1, 1, 0, 0, 0⟩ contexts first).1.2 second).1.1 = .ok .done ∧
      ¬ contexts.Commute (fun state => (service.execute ⟨2024, 1, 1, 0, 0, 0⟩ state first).1)
        (fun state => (service.execute ⟨2024, 1, 1, 0, 0, 0⟩ state second).1) := by
  have run : (do
      let principal ← Dn.parse "o=a"
      let odd ← Dn.parse "1.2.3=b,o=a"
      let given ← Dn.parse "cn=b,x=1,o=a"
      let built ← ofConfig
        (.oddlyNamed [("objectClass", ["organization"]), ("o", ["a"])])
      let firstDn ← built.1.agent.schema.normalizeDn odd
      let secondDn ← built.1.agent.schema.normalizeDn given
      let second : Context := ⟨.delete given, .throw, some principal⟩
      let added := (built.1.execute ⟨2024, 1, 1, 0, 0, 0⟩ built.2
        ⟨.add (.ofValues odd [("objectClass", ["organization", "extensibleObject"]),
          ("1.2.3", ["b"]), ("o", ["b"])]), .throw, some principal⟩).1.2
      Except.ok (decide (firstDn.isAncestorOrSelfOf secondDn = false ∧
        secondDn.isAncestorOrSelfOf firstDn = false ∧
        (built.1.execute ⟨2024, 1, 1, 0, 0, 0⟩ built.2 second).1.1 =
          .error (.noSuchObject "cn=b,x=1,o=a") ∧
        (built.1.execute ⟨2024, 1, 1, 0, 0, 0⟩ added second).1.1 = .ok .done))) =
          Except.ok (ε := Error) true := by
    decide +kernel
  obtain ⟨principal, _, run⟩ := bind_eq_ok_iff.mp run
  obtain ⟨odd, _, run⟩ := bind_eq_ok_iff.mp run
  obtain ⟨given, _, run⟩ := bind_eq_ok_iff.mp run
  obtain ⟨⟨service, start⟩, started, run⟩ := bind_eq_ok_iff.mp run
  obtain ⟨firstDn, firstNormalized, run⟩ := bind_eq_ok_iff.mp run
  obtain ⟨secondDn, secondNormalized, run⟩ := bind_eq_ok_iff.mp run
  obtain ⟨firstBeside, secondBeside, alone, afterAdd⟩ := of_decide_eq_true (Except.ok.inj run)
  refine ⟨_, service, start, ⟨.add (.ofValues odd [("objectClass",
    ["organization", "extensibleObject"]), ("1.2.3", ["b"]), ("o", ["b"])]), .throw,
      some principal⟩, ⟨.delete given, .throw, some principal⟩, firstDn, secondDn,
    .atStart started, rfl, rfl, firstNormalized, secondNormalized, firstBeside, secondBeside, alone,
    afterAdd, fun commute => ?_⟩
  have same := commute.secondAnswer
  simp only [alone, afterAdd] at same
  cases same

end Service

end Directory
