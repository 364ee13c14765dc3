import Directory.Proofs.Agent.Writes
import Directory.Proofs.Partition.Origins
import Directory.Proofs.Partition.Registration
import Directory.Service.History

namespace Directory

/-! # Runs of a service

The agent sees an event as a request, or not at all.  A service starts from empty partitions and
keeps their first entries as it keeps later ones, so every state that it gets into comes from
empty partitions by prepared writes. -/

/-- What stages may make of a request: an add gets other attributes, a modify further changes
that set one value each. -/
inductive Request.Becomes : Request → Request → Prop where
  | add {given entry : Entry} (same : entry.dn = given.dn) : Becomes (.add given) (.add entry)
  | modify {dn : Dn} {changes stamps : List Modification}
      (single : ∀ stamp ∈ stamps, stamp.values.length = 1) :
      Becomes (.modify dn changes) (.modify dn (changes ++ stamps))
  | unchanged (request : Request) : Becomes request request

theorem Request.Becomes.trans {first middle last : Request} (earlier : first.Becomes middle)
    (later : middle.Becomes last) : first.Becomes last := by
  cases later with
  | unchanged => exact earlier
  | add same =>
    cases earlier with
    | unchanged => exact .add same
    | add before => exact .add (same.trans before)
  | modify single =>
    cases earlier with
    | unchanged => exact .modify single
    | modify before =>
      rw [List.append_assoc]
      refine .modify fun stamp listed => ?_
      rcases List.mem_append.mp listed with listed | listed
      · exact before stamp listed
      · exact single stamp listed

theorem Request.Becomes.kind_eq {given passed : Request} (becomes : given.Becomes passed) :
    passed.kind = given.kind := by
  cases becomes <;> rfl

theorem Request.Becomes.target_eq {given passed : Request} (becomes : given.Becomes passed) :
    passed.target = given.target := by
  cases becomes with
  | add same => exact same
  | modify | unchanged => rfl

theorem Request.becomes_stamped (request : Request) (now : Text) (principal? : Option Dn) :
    request.Becomes (request.stamped now principal?) := by
  cases request with
  | add entry => cases principal? <;> exact .add (by simp)
  | modify dn changes =>
    cases principal? with
    | none => exact .modify (by simp)
    | some principal =>
      simp only [stamped, List.append_assoc]
      exact .modify (by simp)
  | _ => exact .unchanged _

/-- Stages leave the mode and the caller as they are. -/
structure Context.Becomes (given passed : Context) : Prop where
  request : given.request.Becomes passed.request
  mode : passed.mode = given.mode
  principal? : passed.principal? = given.principal?

theorem Stage.becomes_of_pass {stage : Stage} {now : Instant} {given passed : Context}
    (passes : stage.pass now given = .ok passed) : given.Becomes passed := by
  cases stage with
  | tracing =>
    cases passes
    exact ⟨.unchanged _, rfl, rfl⟩
  | accessControl access =>
    obtain ⟨_, _, same⟩ := bind_eq_ok_iff.mp passes
    cases same
    exact ⟨.unchanged _, rfl, rfl⟩
  | operationalAttributes =>
    cases passes
    exact ⟨given.request.becomes_stamped _ _, rfl, rfl⟩

theorem Stage.becomes_of_passAll {now : Instant} {stages : List Stage} {given passed : Context}
    (passes : passAll now stages given = (.ok (), passed)) : given.Becomes passed := by
  induction stages generalizing given with
  | nil =>
    cases passes
    exact ⟨.unchanged _, rfl, rfl⟩
  | cons stage rest ih =>
    obtain ⟨middle, first, rest⟩ := passAll_cons_eq_ok_iff.mp passes
    have earlier := becomes_of_pass first
    have later := ih rest
    exact ⟨earlier.request.trans later.request, later.mode.trans earlier.mode,
      later.principal?.trans earlier.principal?⟩

/-- The settings of one partition with its first entry. -/
def Config.single (id suffix : Text) (first : List (Text × List Text)) : Config :=
  { partitions := [{ id, suffix, contextValues? := some (.ofList first) }] }

namespace Service

variable {config : Config} {service : Service} {contexts start : NamingContexts}
  {holds : Partition → Prop}

/-- The stages do not look at the naming contexts: a request is refused in every state, or it is
passed on to the agent in every state. -/
theorem execute_eq_cases (service : Service) (now : Instant) (context : Context) :
    (∃ refusal, ∀ contexts, (service.execute now contexts context).1 = (.error refusal, contexts)) ∨
      ∃ passed, context.Becomes passed ∧ ∀ contexts, (service.execute now contexts context).1 =
        service.agent.answer contexts passed.request passed.mode := by
  cases passes : Stage.passAll now service.stages context with
  | mk outcome passed =>
    cases outcome with
    | error refusal => exact .inl ⟨refusal, fun contexts => by simp only [execute, passes]⟩
    | ok =>
      exact .inr ⟨passed, Stage.becomes_of_passAll passes, fun contexts => by
        simp only [execute, passes]⟩

/-- The request that an event brings before the agent, and in which mode. -/
def submission? (service : Service) : Event → Option (Request × ReferralMode)
  | .seed entry => some (.add entry, .manageDsaIt)
  | .call principal? mode? now command =>
    match service.session principal? mode?, command.request with
    | .ok session, .ok request =>
      match Stage.passAll now service.stages ⟨request, session.mode, session.principal?⟩ with
      | (.ok (), passed) => some (passed.request, passed.mode)
      | (.error _, _) => none
    | _, _ => none

/-- What reaches the agent from a caller is the written command, as the stages left it. -/
theorem becomes_of_submission? {principal? : Option Text} {mode? : Option ReferralMode}
    {now : Instant} {command : Command} {request : Request} {mode : ReferralMode}
    (submitted : service.submission? (.call principal? mode? now command) = some (request, mode)) :
    ∃ given, command.request = .ok given ∧ given.Becomes request := by
  simp only [submission?] at submitted
  cases opened : service.session principal? mode? with
  | error refusal => simp [opened] at submitted
  | ok session =>
    cases read : command.request with
    | error refusal => simp [opened, read] at submitted
    | ok given =>
      simp only [opened, read] at submitted
      cases passes : Stage.passAll now service.stages
          ⟨given, session.mode, session.principal?⟩ with
      | mk outcome passed =>
        cases outcome with
        | error refusal => simp [passes] at submitted
        | ok =>
          simp only [passes, Option.some.injEq, Prod.mk.injEq] at submitted
          obtain ⟨rfl, _⟩ := submitted
          exact ⟨given, rfl, (Stage.becomes_of_passAll passes).request⟩

theorem contexts_seed (service : Service) (contexts : NamingContexts) (entry : Entry) :
    (service.seed contexts entry).2 = (service.agent.answer contexts (.add entry) .manageDsaIt).2 := by
  unfold seed
  split <;> simp_all

theorem contexts_step (service : Service) (contexts : NamingContexts) (event : Event) :
    (service.step contexts event).2 =
      match service.submission? event with
      | none => contexts
      | some (request, mode) => (service.agent.answer contexts request mode).2 := by
  cases event with
  | seed entry => exact contexts_seed service contexts entry
  | call principal? mode? now command =>
    simp only [step, submission?]
    cases service.session principal? mode? with
    | error refusal => rfl
    | ok session =>
      simp only [run]
      cases command.request with
      | error refusal => rfl
      | ok request =>
        simp only [execute]
        cases passed : Stage.passAll now service.stages
            ⟨request, session.mode, session.principal?⟩ with
        | mk outcome context => cases outcome <;> rfl

/-- An event leaves the naming contexts as they are or carries out one write that the agent
prepares for its request. -/
theorem step_cases (distinct : contexts.HasDistinctIds) (service : Service) (event : Event) :
    (service.step contexts event).2 = contexts ∨ ∃ request mode partition write,
      service.submission? event = some (request, mode) ∧
        service.agent.Prepares partition request write ∧
        contexts.Performs partition write (service.step contexts event).2 := by
  have seen := contexts_step service contexts event
  cases submitted : service.submission? event with
  | none => exact .inl (by simpa [submitted] using seen)
  | some pair =>
    obtain ⟨request, mode⟩ := pair
    simp only [submitted] at seen
    rw [seen]
    refine (Agent.answer_cases distinct service.agent request mode).imp_right ?_
    rintro ⟨partition, write, _, prepared, performed⟩
    exact ⟨request, mode, partition, write, rfl, prepared, performed⟩

theorem frame_step (distinct : contexts.HasDistinctIds) (service : Service) (event : Event) :
    (service.step contexts event).2.frame = contexts.frame := by
  rcases step_cases distinct service event with same | ⟨_, _, _, _, _, _, performed⟩
  · rw [same]
  · exact performed.frame_eq distinct

theorem frame_after (distinct : contexts.HasDistinctIds) (service : Service) (events : List Event) :
    (service.after contexts events).frame = contexts.frame := by
  induction events generalizing contexts with
  | nil => rfl
  | cons event rest ih =>
    have first := frame_step distinct service event
    have stillDistinct : (service.step contexts event).2.HasDistinctIds := by
      rw [NamingContexts.hasDistinctIds_iff, first]
      exact NamingContexts.hasDistinctIds_iff.mp distinct
    exact (ih stillDistinct).trans first

/-- What holds of every partition before a run, and of a partition after each write that an event
of the run comes to, holds of every partition after the run. -/
theorem partitions_after {events : List Event} (distinct : contexts.HasDistinctIds)
    (begun : ∀ partition ∈ contexts.partitions, holds partition)
    (kept : ∀ event ∈ events, ∀ request mode, service.submission? event = some (request, mode) →
      ∀ partition write, service.agent.Prepares partition request write →
        partition.admits write = .ok () → holds partition →
        holds { partition with store := partition.effect write }) :
    ∀ partition ∈ (service.after contexts events).partitions, holds partition := by
  induction events generalizing contexts with
  | nil => exact begun
  | cons event rest ih =>
    have stillDistinct : (service.step contexts event).2.HasDistinctIds := by
      rw [NamingContexts.hasDistinctIds_iff, frame_step distinct]
      exact NamingContexts.hasDistinctIds_iff.mp distinct
    have next : ∀ partition ∈ (service.step contexts event).2.partitions, holds partition := by
      rcases step_cases distinct service event with
        same | ⟨request, mode, partition, write, submitted, prepared, performed⟩
      · rw [same]
        exact begun
      · intro other member
        rcases performed.mem_cases member with rfl | untouched
        · exact kept event List.mem_cons_self request mode submitted partition write prepared
            performed.admitted (begun partition performed.member)
        · exact begun other untouched
    exact ih stillDistinct next fun later listed => kept later (List.mem_cons_of_mem _ listed)

theorem seedAll_eq_ok {entries : List Entry} {seeded : NamingContexts}
    (kept : service.seedAll contexts entries = .ok seeded) :
    seeded = service.after contexts (entries.map .seed) := by
  induction entries generalizing contexts with
  | nil => exact (Except.ok.inj kept).symm
  | cons entry rest ih =>
    rw [seedAll] at kept
    cases answer : service.seed contexts entry with
    | mk outcome changed =>
      cases outcome with
      | error refusal => simp [answer] at kept
      | ok new =>
        simp only [answer] at kept
        have changes : (service.step contexts (.seed entry)).2 = changed := by
          simp only [step, answer]
        rw [List.map_cons, after, List.foldl_cons, changes]
        exact ih kept

/-- Partitions as they are opened: without entries, each with a suffix in canonical form. -/
structure OpenedBy (contexts : NamingContexts) (schema : Schema) : Prop where
  distinct : contexts.HasDistinctIds
  isEmpty : ∀ partition ∈ contexts.partitions,
    partition = .empty partition.id partition.suffix ∧ partition.suffix.isRoot = false ∧
      ∃ given, schema.normalizeDn given = .ok partition.suffix

theorem openedBy_openPartition {schema : Schema} {partitionConfig : PartitionConfig}
    {opened : NamingContexts} {first? : Option Entry} (before : OpenedBy contexts schema)
    (opens : openPartition schema contexts partitionConfig = .ok (opened, first?)) :
    OpenedBy opened schema := by
  simp only [openPartition, bind_eq_ok_iff] at opens
  obtain ⟨written, _, suffix, normalized, opens⟩ := opens
  rcases contexts.register_cases (.empty partitionConfig.id suffix) with
    ⟨_, refused⟩ | ⟨clear, accepted⟩
  · simp [refused] at opens
  · simp only [accepted, Except.ok.injEq, Prod.mk.injEq] at opens
    obtain ⟨rfl, _⟩ := opens
    obtain ⟨named, apart⟩ := NamingContexts.conflict?_eq_none_iff.mp clear
    refine ⟨List.pairwise_append.mpr ⟨before.distinct, List.pairwise_singleton _ _, ?_⟩, ?_⟩
    · intro other listed added isAdded
      rw [List.mem_singleton.mp isAdded]
      exact (apart other listed).ids
    · intro partition listed
      rcases List.mem_append.mp listed with listed | isAdded
      · exact before.isEmpty partition listed
      · obtain rfl := List.mem_singleton.mp isAdded
        exact ⟨rfl, named, written, normalized⟩

theorem openedBy_openPartitions {schema : Schema} {configs : List PartitionConfig}
    {opened : NamingContexts} {entries : List Entry} (before : OpenedBy contexts schema)
    (opens : openPartitions schema contexts configs = .ok (opened, entries)) :
    OpenedBy opened schema := by
  induction configs generalizing contexts entries with
  | nil =>
    cases opens
    exact before
  | cons first rest ih =>
    simp only [openPartitions, bind_eq_ok_iff] at opens
    obtain ⟨⟨middle, _⟩, openedFirst, ⟨_, _⟩, openedRest, same⟩ := opens
    cases same
    exact ih (openedBy_openPartition before openedFirst) openedRest

theorem ofConfig_eq_ok (started : ofConfig config = .ok (service, start)) :
    Schema.core.extended config.schema = .ok service.agent.schema ∧
      ∃ (opened : NamingContexts) (entries : List Entry), OpenedBy opened service.agent.schema ∧
        start = service.after opened (entries.map .seed) := by
  simp only [ofConfig, bind_eq_ok_iff] at started
  obtain ⟨_, _, schema, built, ⟨opened, entries⟩, opens, stages, _, seeded, seeds, same⟩ := started
  cases same
  have nothing : OpenedBy .empty schema := ⟨.nil, nofun⟩
  exact ⟨built, opened, entries, openedBy_openPartitions nothing opens, seedAll_eq_ok seeds⟩

/-- What does not look above the leaf of a name, and holds of each entry that an event brings if it
holds of the stored ones, holds of every entry after a run. -/
theorem entries_after {property : Entry → Prop} (started : ofConfig config = .ok (service, start))
    {events : List Event}
    (leafOnly : ∀ entry origin : Entry, entry.SameButSuperiors origin →
      property origin → property entry)
    (brings : ∀ event, (∃ entry, event = .seed entry) ∨ event ∈ events → ∀ request mode,
      service.submission? event = some (request, mode) → ∀ partition write,
        service.agent.Prepares partition request write →
        (∀ entry ∈ partition.store.values, property entry) →
        ∀ entry, write.entry? = some entry → property entry) :
    ∀ partition ∈ (service.after start events).partitions, ∀ entry ∈ partition.store.values,
      property entry := by
  obtain ⟨_, opened, entries, isOpened, rfl⟩ := ofConfig_eq_ok started
  rw [← after_append]
  refine partitions_after isOpened.distinct (fun partition listed entry held => ?_) ?_
  · rw [(isOpened.isEmpty partition listed).1] at held
    exact absurd held List.not_mem_nil
  · intro event listed request mode submitted partition write prepared admitted held
    have seedOrCall : (∃ entry, event = .seed entry) ∨ event ∈ events := by
      rcases List.mem_append.mp listed with seed | call
      · obtain ⟨entry, _, same⟩ := List.mem_map.mp seed
        exact .inl ⟨entry, same.symm⟩
      · exact .inr call
    exact Partition.forall_effect_of_leaf leafOnly
      (brings event seedOrCall request mode submitted partition write prepared held) held

theorem Reachable.entries {property : Entry → Prop} (reached : Reachable config service contexts)
    (leafOnly : ∀ entry origin : Entry, entry.SameButSuperiors origin →
      property origin → property entry)
    (brings : ∀ request partition write, service.agent.Prepares partition request write →
      (∀ entry ∈ partition.store.values, property entry) →
      ∀ entry, write.entry? = some entry → property entry) :
    ∀ partition ∈ contexts.partitions, ∀ entry ∈ partition.store.values, property entry := by
  obtain ⟨start, events, started, rfl⟩ := reached
  exact entries_after started leafOnly fun _ _ request _ _ => brings request

theorem Reachable.after (reached : Reachable config service contexts) (events : List Event) :
    Reachable config service (service.after contexts events) := by
  obtain ⟨start, earlier, started, rfl⟩ := reached
  exact ⟨start, earlier ++ events, started, (after_append service start earlier events).symm⟩

/-- A reachable state comes from opened partitions by a run that begins with seeds. -/
theorem Reachable.exists_run (reached : Reachable config service contexts) :
    ∃ opened events, OpenedBy opened service.agent.schema ∧
      contexts = service.after opened events := by
  obtain ⟨start, events, started, rfl⟩ := reached
  obtain ⟨_, opened, entries, isOpened, rfl⟩ := ofConfig_eq_ok started
  exact ⟨opened, entries.map .seed ++ events, isOpened, (after_append _ _ _ _).symm⟩

/-- What holds of an empty partition and is kept by prepared writes holds of each partition of a
reachable state. -/
theorem Reachable.partitions (reached : Reachable config service contexts)
    (begun : ∀ id suffix, suffix.isRoot = false → holds (.empty id suffix))
    (kept : ∀ request partition write, service.agent.Prepares partition request write →
      partition.admits write = .ok () → holds partition →
      holds { partition with store := partition.effect write }) :
    ∀ partition ∈ contexts.partitions, holds partition := by
  obtain ⟨opened, events, isOpened, rfl⟩ := reached.exists_run
  refine partitions_after isOpened.distinct (fun partition listed => ?_)
    fun _ _ request _ _ => kept request
  obtain ⟨same, named, _⟩ := isOpened.isEmpty partition listed
  rw [same]
  exact begun _ _ named

theorem isRegistered_openPartitions {schema : Schema} {configs : List PartitionConfig}
    {opened : NamingContexts} {entries : List Entry} (before : contexts.IsRegistered)
    (opens : openPartitions schema contexts configs = .ok (opened, entries)) :
    opened.IsRegistered := by
  induction configs generalizing contexts entries with
  | nil =>
    cases opens
    exact before
  | cons first rest ih =>
    simp only [openPartitions, openPartition, bind_eq_ok_iff] at opens
    obtain ⟨⟨middle, _⟩, ⟨written, _, suffix, _, openedFirst⟩, ⟨_, _⟩, openedRest, same⟩ := opens
    cases same
    refine ih ?_ openedRest
    rcases contexts.register_cases (.empty first.id suffix) with ⟨_, refused⟩ | ⟨_, accepted⟩
    · simp [refused] at openedFirst
    · simp only [accepted, Except.ok.injEq, Prod.mk.injEq] at openedFirst
      obtain ⟨rfl, _⟩ := openedFirst
      have called := before.register (.empty first.id suffix)
      rwa [accepted] at called

/-- Events change neither identifiers nor suffixes, so partitions stay as separate as they were
registered. -/
theorem Reachable.isSeparated (reached : Reachable config service contexts) :
    contexts.IsSeparated := by
  obtain ⟨start, events, started, rfl⟩ := reached
  simp only [ofConfig, bind_eq_ok_iff] at started
  obtain ⟨_, _, schema, _, ⟨opened, entries⟩, opens, stages, _, seeded, seeds, same⟩ := started
  cases same
  have separated := (isRegistered_openPartitions ⟨[], rfl⟩ opens).isSeparated
  have distinct : opened.HasDistinctIds := separated.apart.imp fun apart => apart.ids
  rw [seedAll_eq_ok seeds, ← after_append, NamingContexts.isSeparated_iff_frame,
    frame_after distinct]
  exact NamingContexts.isSeparated_iff_frame.mp separated

end Service

end Directory
