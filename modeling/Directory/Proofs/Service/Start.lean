import Directory.Proofs.Agent.Refusals
import Directory.Proofs.Name.Canonical
import Directory.Proofs.Service.Runs

namespace Directory

/-! # How a service starts

Settings that pass their own checks start a service exactly if the schema can be built, every
suffix has a canonical form that overlaps no other one, and every first entry conforms to the
schema.  The partitions then come in the order of the settings, each with its first entry. -/

namespace PartitionConfig

/-- The partition owns the canonical form of its written suffix. -/
def Owns (partition : PartitionConfig) (schema : Schema) (suffix : Dn) : Prop :=
  ∃ written, partition.suffixDn = .ok written ∧ schema.normalizeDn written = .ok suffix

/-- The entry that the partition starts with. -/
def initial? (partition : PartitionConfig) (schema : Schema) (suffix : Dn) : Option Entry :=
  partition.contextEntry? suffix |>.map schema.normalizeEntry

/-- The partition before anything happened to it. -/
def start (partition : PartitionConfig) (schema : Schema) (suffix : Dn) : Partition :=
  { Partition.empty partition.id suffix with
    store := (partition.initial? schema suffix).toList.foldl Store.put .empty }

end PartitionConfig

/-- What settings need to start a service. -/
structure Config.Admits (config : Config) (schema : Schema) (suffixes : List Dn) : Prop where
  valid : config.validate = .ok ()
  built : Schema.core.extended config.schema = .ok schema
  owned : List.Forall₂ (fun partition suffix => partition.Owns schema suffix) config.partitions
    suffixes
  apart : suffixes.Pairwise fun left right =>
    left.isAncestorOrSelfOf right = false ∧ right.isAncestorOrSelfOf left = false
  conforming : List.Forall₂ (fun partition suffix => ∀ entry,
    partition.initial? schema suffix = some entry → schema.validate entry = .ok ())
    config.partitions suffixes

theorem Config.distinct_of_checkPartitions {taken : List Text} {partitions : List PartitionConfig}
    (checked : checkPartitions taken partitions = .ok ()) :
    (partitions.map PartitionConfig.id).Nodup ∧ ∀ partition ∈ partitions, partition.id ∉ taken := by
  induction partitions generalizing taken with
  | nil => exact ⟨.nil, nofun⟩
  | cons first rest ih =>
    simp only [checkPartitions, bind_eq_ok_iff, refuseIf_eq_ok_iff] at checked
    obtain ⟨_, _, _, fresh, _, _, later⟩ := checked
    obtain ⟨distinct, apart⟩ := ih later
    refine ⟨List.nodup_cons.mpr ⟨fun again => ?_, distinct⟩, fun partition listed => ?_⟩
    · obtain ⟨other, listed, same⟩ := List.mem_map.mp again
      exact apart other listed (same ▸ List.mem_cons_self)
    · rcases List.mem_cons.mp listed with rfl | listed
      · simpa using fresh
      · exact fun seen => apart partition listed (List.mem_cons_of_mem _ seen)

namespace PartitionConfig

variable {partition : PartitionConfig} {schema : Schema} {suffix : Dn}

theorem Owns.isRoot_eq_false (owns : partition.Owns schema suffix) : suffix.isRoot = false := by
  obtain ⟨written, isWritten, normalized⟩ := owns
  simp only [suffixDn, bind_eq_ok_iff, refuseIf_eq_ok_iff] at isWritten
  obtain ⟨_, _, _, named, same⟩ := isWritten
  cases same
  rw [Schema.isRoot_of_normalizeDn normalized, named]

theorem Owns.normalizeDn_eq (owns : partition.Owns schema suffix) :
    schema.normalizeDn suffix = .ok suffix := by
  obtain ⟨_, _, normalized⟩ := owns
  exact Schema.normalizeDn_self normalized

end PartitionConfig

/-- The partitions that settings name, each with the canonical form of its suffix. -/
abbrev Places := List (PartitionConfig × Dn)

namespace Places

def empty (places : Places) : List Partition := places.map fun place => .empty place.1.id place.2

def start (places : Places) (schema : Schema) : List Partition :=
  places.map fun place => place.1.start schema place.2

def entries (places : Places) : List Entry :=
  places.flatMap fun place => PartitionConfig.contextEntry? place.1 place.2 |>.toList

theorem forall₂_iff {places : Places} {relation : PartitionConfig → Dn → Prop} :
    List.Forall₂ relation (places.map Prod.fst) (places.map Prod.snd) ↔
      ∀ place ∈ places, relation place.1 place.2 := by
  rw [List.forall₂_map_left_iff, List.forall₂_map_right_iff, List.forall₂_same]

end Places

theorem NamingContexts.IsSeparated.left {before after : List Partition}
    (separated : IsSeparated ⟨before ++ after⟩) : IsSeparated ⟨before⟩ :=
  ⟨fun partition listed => separated.named partition (List.mem_append_left _ listed),
    (List.pairwise_append.mp separated.apart).1⟩

namespace Service

variable {schema : Schema} {contexts opened : NamingContexts} {before : List Partition}

theorem openPartition_eq_ok_iff {partition : PartitionConfig} {first? : Option Entry} :
    openPartition schema contexts partition = .ok (opened, first?) ↔
      ∃ suffix, partition.Owns schema suffix ∧
        contexts.conflict? (.empty partition.id suffix) = none ∧
        opened = ⟨contexts.partitions ++ [.empty partition.id suffix]⟩ ∧
        first? = partition.contextEntry? suffix := by
  simp only [openPartition, bind_eq_ok_iff, mapError_eq_ok_iff]
  constructor
  · rintro ⟨written, isWritten, suffix, normalized, opens⟩
    rcases contexts.register_cases (.empty partition.id suffix) with
      ⟨_, refused⟩ | ⟨clear, accepted⟩
    · simp [refused] at opens
    · simp only [accepted, Except.ok.injEq, Prod.mk.injEq] at opens
      exact ⟨suffix, ⟨written, isWritten, normalized⟩, clear, opens.1.symm, opens.2.symm⟩
  · rintro ⟨suffix, ⟨written, isWritten, normalized⟩, clear, rfl, rfl⟩
    exact ⟨written, isWritten, suffix, normalized, by
      simp only [NamingContexts.register_of_clear clear]⟩

theorem openPartitions_eq_ok_iff {partitions : List PartitionConfig} {entries : List Entry}
    (separated : NamingContexts.IsSeparated ⟨before⟩) :
    openPartitions schema ⟨before⟩ partitions = .ok (opened, entries) ↔
      ∃ places : Places, places.map Prod.fst = partitions ∧
        (∀ place ∈ places, place.1.Owns schema place.2) ∧
        opened = ⟨before ++ places.empty⟩ ∧ opened.IsSeparated ∧ entries = places.entries := by
  induction partitions generalizing before opened entries with
  | nil =>
    constructor
    · intro opens
      cases opens
      exact ⟨[], rfl, nofun, by rw [Places.empty, List.map_nil, List.append_nil], separated, rfl⟩
    · rintro ⟨places, none, _, rfl, _, rfl⟩
      rw [List.map_eq_nil_iff] at none
      subst none
      simp [openPartitions, Places.empty, Places.entries]
  | cons first rest ih =>
    simp only [openPartitions, bind_eq_ok_iff]
    constructor
    · rintro ⟨⟨middle, first?⟩, opensFirst, ⟨_, others⟩, opensRest, same⟩
      cases same
      obtain ⟨suffix, owns, clear, rfl, rfl⟩ := openPartition_eq_ok_iff.mp opensFirst
      have apart := NamingContexts.isSeparated_append_iff.mpr ⟨separated, clear⟩
      obtain ⟨places, rfl, own, rfl, allApart, rfl⟩ := (ih apart).mp opensRest
      refine ⟨(first, suffix) :: places, rfl, List.forall_mem_cons.mpr ⟨owns, own⟩, ?_, allApart,
        rfl⟩
      simp [Places.empty]
    · rintro ⟨places, named, own, rfl, allApart, rfl⟩
      obtain ⟨⟨first, suffix⟩, others, rfl, rfl, rfl⟩ := List.map_eq_cons_iff.mp named
      obtain ⟨owns, ownOthers⟩ := List.forall_mem_cons.mp own
      have regrouped : before ++ Places.empty ((first, suffix) :: others) =
          before ++ [.empty first.id suffix] ++ Places.empty others := by simp [Places.empty]
      rw [regrouped] at allApart ⊢
      have apart := allApart.left
      have clear := (NamingContexts.isSeparated_append_iff.mp apart).2
      exact ⟨(_, _), openPartition_eq_ok_iff.mpr ⟨suffix, owns, clear, rfl, rfl⟩, (_, _),
        (ih apart).mpr ⟨others, rfl, ownOthers, rfl, allApart, rfl⟩, rfl⟩

end Service

/-- A write on one of several partitions changes it where it stands. -/
theorem NamingContexts.perform_between {before after : List Partition} {partition : Partition}
    {write : Partition.Write} (separated : IsSeparated ⟨before ++ partition :: after⟩)
    (admitted : partition.admits write = .ok ()) :
    perform ⟨before ++ partition :: after⟩ partition.id write =
      (.ok (), ⟨before ++ { partition with store := partition.effect write } :: after⟩) := by
  have distinct : HasDistinctIds ⟨before ++ partition :: after⟩ :=
    separated.apart.imp fun apart => apart.ids
  have member : partition ∈ before ++ partition :: after := by simp
  obtain ⟨_, later, beside⟩ := List.pairwise_append.mp distinct
  have unchanged (others : List Partition) (apart : ∀ other ∈ others, other.id ≠ partition.id) :
      others.map (fun other => if (other.id == partition.id) = true then
        { partition with store := partition.effect write } else other) = others := by
    refine (List.map_congr_left fun other listed => ?_).trans (List.map_id _)
    exact if_neg (by simpa using apart other listed)
  rw [perform, distinct.partition?_eq_some member]
  simp only [Partition.perform_of_admits admitted, List.map_append, List.map_cons, beq_self_eq_true,
    if_true]
  rw [unchanged before fun other listed => beside other listed partition List.mem_cons_self,
    unchanged after fun other listed => ((List.pairwise_cons.mp later).1 other listed).symm]

/-- At the suffix of an empty partition an entry meets nothing but the schema. -/
theorem Agent.planAdd_first (agent : Agent) {contexts : NamingContexts} {id : Text} {suffix : Dn}
    {entry : Entry} (separated : contexts.IsSeparated)
    (member : Partition.empty id suffix ∈ contexts.partitions)
    (canonical : agent.schema.normalizeDn suffix = .ok suffix) (named : entry.dn = suffix) :
    agent.planAdd contexts entry .manageDsaIt =
      (agent.schema.validate (agent.schema.normalizeEntry entry)).map fun _ =>
        ⟨id, .create (agent.schema.normalizeEntry entry)⟩ := by
  subst named
  have normalized : agent.canonicalEntry entry = .ok (agent.schema.normalizeEntry entry) := by
    have kept := agent.schema.dn_normalizeEntry entry
    rw [canonicalEntry, canonical]
    exact congrArg Except.ok (by rw [← kept])
  have covered : covering contexts entry.dn = .ok (.empty id entry.dn) :=
    covering_eq_ok_iff.mpr
      (separated.resolve?_eq_some_iff.mpr ⟨member, Dn.isAncestorOrSelfOf_refl entry.dn⟩)
  have placed : checkPlace .manageDsaIt (.empty id entry.dn) entry.dn = .ok () := by
    unfold checkPlace
    split
    · rfl
    · exact if_pos (Dn.beq_iff_path.mpr rfl)
  rw [planAdd, normalized]
  simp only [bind, Except.bind, agent.schema.dn_normalizeEntry entry, covered, placed]
  cases agent.schema.validate (agent.schema.normalizeEntry entry) <;> rfl

namespace Service

variable {service : Service} {before after : List Partition} {id : Text} {suffix : Dn}
  {entry : Entry}

theorem seed_of_accepted
    (separated : NamingContexts.IsSeparated ⟨before ++ .empty id suffix :: after⟩)
    (canonical : service.agent.schema.normalizeDn suffix = .ok suffix) (named : entry.dn = suffix)
    (accepted :
      service.agent.schema.validate (service.agent.schema.normalizeEntry entry) = .ok ()) :
    service.seed ⟨before ++ .empty id suffix :: after⟩ entry =
      (.ok true, ⟨before ++ { Partition.empty id suffix with
        store := Store.put .empty (service.agent.schema.normalizeEntry entry) } :: after⟩) := by
  have member : Partition.empty id suffix ∈ before ++ .empty id suffix :: after := by simp
  have planned := service.agent.planAdd_first separated member canonical named
  have kept : (service.agent.schema.normalizeEntry entry).dn = suffix :=
    (service.agent.schema.dn_normalizeEntry entry).trans named
  have owned : suffix.isAncestorOrSelfOf suffix = true := Dn.isAncestorOrSelfOf_refl suffix
  have atSuffix : (suffix == suffix) = true := Dn.beq_iff_path.mpr rfl
  have admitted : (Partition.empty id suffix).admits
      (.create (service.agent.schema.normalizeEntry entry)) = .ok () := by
    simp only [Partition.admits, Partition.checkOwned, Partition.checkParent, Partition.empty, kept,
      owned, atSuffix, if_true, bind_eq_ok_iff, refuseIf_eq_ok_iff]
    exact ⟨(), rfl, (), rfl, trivial⟩
  have performed : NamingContexts.perform ⟨before ++ .empty id suffix :: after⟩ id
      (.create (service.agent.schema.normalizeEntry entry)) =
        (.ok (), ⟨before ++ { Partition.empty id suffix with
          store := Store.put .empty (service.agent.schema.normalizeEntry entry) } :: after⟩) :=
    NamingContexts.perform_between separated admitted
  rw [accepted] at planned
  simp only [seed, Agent.answer, planned, Except.map, Agent.commit, performed]

theorem seed_of_refused {refusal : Error}
    (separated : NamingContexts.IsSeparated ⟨before ++ .empty id suffix :: after⟩)
    (canonical : service.agent.schema.normalizeDn suffix = .ok suffix) (named : entry.dn = suffix)
    (refused : service.agent.schema.validate (service.agent.schema.normalizeEntry entry) =
      .error refusal) :
    (service.seed ⟨before ++ .empty id suffix :: after⟩ entry).1 = .error refusal := by
  have member : Partition.empty id suffix ∈ before ++ .empty id suffix :: after := by simp
  have planned := service.agent.planAdd_first separated member canonical named
  have nonconformance := Schema.checksConformance_validate _ refusal refused
  rw [refused] at planned
  simp only [seed, Agent.answer, planned, Except.map, Agent.commit]
  cases refusal <;> first | rfl | contradiction

theorem seedAll_eq_ok_iff {places : Places} {seeded : NamingContexts}
    (separated : NamingContexts.IsSeparated ⟨before ++ places.empty⟩)
    (own : ∀ place ∈ places, place.1.Owns service.agent.schema place.2) :
    service.seedAll ⟨before ++ places.empty⟩ places.entries = .ok seeded ↔
      (∀ place ∈ places, ∀ entry, place.1.initial? service.agent.schema place.2 = some entry →
        service.agent.schema.validate entry = .ok ()) ∧
      seeded = ⟨before ++ places.start service.agent.schema⟩ := by
  induction places generalizing before with
  | nil => simp [Places.empty, Places.entries, Places.start, seedAll, eq_comm]
  | cons place rest ih =>
    obtain ⟨owns, ownRest⟩ := List.forall_mem_cons.mp own
    have opened : before ++ Places.empty (place :: rest) =
        before ++ .empty place.1.id place.2 :: Places.empty rest := rfl
    have regrouped (partition : Partition) : before ++ partition :: Places.empty rest =
        before ++ [partition] ++ Places.empty rest := by simp
    have started : before ++ Places.start (place :: rest) service.agent.schema =
        before ++ [place.1.start service.agent.schema place.2] ++
          Places.start rest service.agent.schema := by simp [Places.start]
    have stillSeparated : NamingContexts.IsSeparated
        ⟨before ++ [place.1.start service.agent.schema place.2] ++ Places.empty rest⟩ := by
      rw [NamingContexts.isSeparated_iff_frame] at separated ⊢
      simpa [NamingContexts.frame, Places.empty, PartitionConfig.start] using separated
    rw [opened] at separated ⊢
    rw [List.forall_mem_cons, started]
    cases first : PartitionConfig.contextEntry? place.1 place.2 with
    | none =>
      have nothing : Places.entries (place :: rest) = Places.entries rest := by
        simp [Places.entries, first]
      have unfilled : Partition.empty place.1.id place.2 =
          place.1.start service.agent.schema place.2 := by
        simp [PartitionConfig.start, PartitionConfig.initial?, first, Partition.empty]
      rw [nothing, unfilled, regrouped, ih stillSeparated ownRest]
      simp [PartitionConfig.initial?, first]
    | some entry =>
      have named : entry.dn = place.2 := by
        obtain ⟨table, _, rfl⟩ := Option.map_eq_some_iff.mp first
        exact Entry.dn_ofValues place.2 table.bindings
      have listed : Places.entries (place :: rest) = entry :: Places.entries rest := by
        simp [Places.entries, first]
      rw [listed, seedAll]
      cases verdict : service.agent.schema.validate (service.agent.schema.normalizeEntry entry) with
      | error refusal =>
        have refused := seed_of_refused separated owns.normalizeDn_eq named verdict
        cases seeds : service.seed
            ⟨before ++ .empty place.1.id place.2 :: Places.empty rest⟩ entry with
        | mk answer changed =>
          rw [seeds] at refused
          subst refused
          simp [PartitionConfig.initial?, first, verdict]
      | ok =>
        have filled : { Partition.empty place.1.id place.2 with
            store := Store.put .empty (service.agent.schema.normalizeEntry entry) } =
              place.1.start service.agent.schema place.2 := by
          simp [PartitionConfig.start, PartitionConfig.initial?, first]
        rw [seed_of_accepted separated owns.normalizeDn_eq named verdict, filled, regrouped]
        simp only
        rw [ih stillSeparated ownRest]
        simp [PartitionConfig.initial?, first, verdict]

variable {config : Config} {start : NamingContexts}

theorem isSeparated_empty_iff {schema : Schema} {places : Places}
    (distinct : (places.map fun place => place.1.id).Nodup)
    (own : ∀ place ∈ places, place.1.Owns schema place.2) :
    NamingContexts.IsSeparated ⟨places.empty⟩ ↔
      (places.map Prod.snd).Pairwise fun left right =>
        left.isAncestorOrSelfOf right = false ∧ right.isAncestorOrSelfOf left = false := by
  rw [List.pairwise_map]
  constructor
  · intro separated
    refine (List.pairwise_map.mp separated.apart).imp ?_
    intro left right apart
    exact NamingContexts.overlap_eq_false_iff.mp apart.trees
  · intro trees
    refine ⟨?_, List.pairwise_map.mpr (((List.pairwise_map.mp distinct).and trees).imp ?_)⟩
    · intro partition listed
      obtain ⟨place, isPlace, rfl⟩ := List.mem_map.mp listed
      exact (own place isPlace).isRoot_eq_false
    · intro left right apart
      exact ⟨apart.1, NamingContexts.overlap_eq_false_iff.mpr apart.2⟩

theorem exists_stages (valid : config.validate = .ok ()) :
    ∃ stages, Stage.ofConfig config = .ok stages := by
  simp only [Config.validate, bind_eq_ok_iff] at valid
  obtain ⟨_, _, administrators, named, _⟩ := valid
  exact ⟨_, by rw [Stage.ofConfig, named]; rfl⟩

theorem ofConfig_eq_ok_iff : ofConfig config = .ok (service, start) ↔
    config.validate = .ok () ∧ ∃ schema stages, ∃ places : Places,
      Schema.core.extended config.schema = .ok schema ∧ Stage.ofConfig config = .ok stages ∧
      service = ⟨⟨schema, config.referral⟩, stages, config.defaultMode⟩ ∧
      places.map Prod.fst = config.partitions ∧
      (∀ place ∈ places, place.1.Owns schema place.2) ∧
      NamingContexts.IsSeparated ⟨places.empty⟩ ∧
      (∀ place ∈ places, ∀ entry, place.1.initial? schema place.2 = some entry →
        schema.validate entry = .ok ()) ∧
      start = ⟨places.start schema⟩ := by
  have nothing : NamingContexts.IsSeparated ⟨[]⟩ := ⟨nofun, .nil⟩
  simp only [ofConfig, bind_eq_ok_iff, mapError_eq_ok_iff]
  constructor
  · rintro ⟨_, valid, schema, built, ⟨opened, entries⟩, opens, stages, staged, seeded, seeds, same⟩
    cases same
    obtain ⟨places, named, own, rfl, separated, rfl⟩ := (openPartitions_eq_ok_iff nothing).mp opens
    obtain ⟨conforming, rfl⟩ := (seedAll_eq_ok_iff separated own).mp seeds
    exact ⟨valid, schema, stages, places, built, staged, rfl, named, own, separated, conforming,
      rfl⟩
  · rintro ⟨valid, schema, stages, places, built, staged, rfl, named, own, separated, conforming,
      rfl⟩
    have opens : openPartitions schema .empty config.partitions =
        .ok (⟨[] ++ places.empty⟩, places.entries) :=
      (openPartitions_eq_ok_iff nothing).mpr ⟨places, named, own, rfl, separated, rfl⟩
    have seeds : seedAll ⟨⟨schema, config.referral⟩, stages, config.defaultMode⟩
        ⟨[] ++ places.empty⟩ places.entries = .ok ⟨[] ++ places.start schema⟩ :=
      (seedAll_eq_ok_iff separated own).mpr ⟨conforming, rfl⟩
    exact ⟨(), valid, schema, built, _, opens, stages, staged, _, seeds, rfl⟩

theorem distinct_of_validate (valid : config.validate = .ok ()) {places : Places}
    (named : places.map Prod.fst = config.partitions) :
    (places.map fun place => place.1.id).Nodup := by
  obtain ⟨_, checked, _⟩ := bind_eq_ok_iff.mp valid
  have ids := (Config.distinct_of_checkPartitions checked).1
  rwa [← named, List.map_map] at ids

/-- A service that started opened the partitions of its settings, each with its first entry. -/
theorem admits_of_ofConfig (started : ofConfig config = .ok (service, start)) :
    config.Admits service.agent.schema start.suffixes ∧
      List.Forall₂ (fun partition opened => opened.id = partition.id ∧
          opened.store.values =
            (partition.initial? service.agent.schema opened.suffix).toList)
        config.partitions start.partitions := by
  obtain ⟨valid, schema, stages, places, built, staged, rfl, named, own, separated, conforming,
    rfl⟩ := ofConfig_eq_ok_iff.mp started
  have suffixes : NamingContexts.suffixes ⟨places.start schema⟩ = places.map Prod.snd := by
    simp [NamingContexts.suffixes, Places.start, PartitionConfig.start, Partition.empty]
  refine ⟨⟨valid, built, ?owned, ?apart, ?conforming⟩, ?filled⟩
  case owned =>
    rw [suffixes, ← named]
    exact Places.forall₂_iff.mpr own
  case apart =>
    rw [suffixes]
    exact (isSeparated_empty_iff (distinct_of_validate valid named) own).mp separated
  case conforming =>
    rw [suffixes, ← named]
    exact Places.forall₂_iff.mpr conforming
  case filled =>
    rw [← named, List.forall₂_map_left_iff, Places.start, List.forall₂_map_right_iff,
      List.forall₂_same]
    intro place listed
    refine ⟨rfl, ?_⟩
    simp only [PartitionConfig.start, Partition.empty]
    cases place.1.initial? schema place.2 <;> rfl

theorem exists_ofConfig {schema : Schema} {suffixes : List Dn}
    (admits : config.Admits schema suffixes) :
    ∃ service start, ofConfig config = .ok (service, start) := by
  obtain ⟨valid, built, owned, apart, conforming⟩ := admits
  obtain ⟨stages, staged⟩ := exists_stages valid
  have counted := owned.length_eq
  obtain ⟨places, named, rfl⟩ : ∃ places : Places,
      places.map Prod.fst = config.partitions ∧ places.map Prod.snd = suffixes :=
    ⟨config.partitions.zip suffixes, List.map_fst_zip (by omega), List.map_snd_zip (by omega)⟩
  rw [← named, Places.forall₂_iff] at owned conforming
  have separated := (isSeparated_empty_iff (distinct_of_validate valid named) owned).mpr apart
  exact ⟨_, _, ofConfig_eq_ok_iff.mpr ⟨valid, schema, stages, _, built, staged, rfl, named, owned,
    separated, conforming, rfl⟩⟩

/-- A service starts exactly if the settings pass their checks, the schema can be built, every
suffix has a canonical form that overlaps no other one, and every first entry conforms.  It starts
with these suffixes in the order of the settings, and each partition holds its first entry alone. -/
theorem starts_iff_admitted (config : Config) :
    ((∃ service start, ofConfig config = .ok (service, start)) ↔
      ∃ schema suffixes, config.Admits schema suffixes) ∧
    ∀ service start, ofConfig config = .ok (service, start) →
      config.Admits service.agent.schema start.suffixes ∧
      List.Forall₂ (fun partition opened => opened.id = partition.id ∧
          opened.store.values =
            (partition.initial? service.agent.schema opened.suffix).toList)
        config.partitions start.partitions := by
  refine ⟨⟨?_, ?_⟩, fun service start started => admits_of_ofConfig started⟩
  · rintro ⟨service, start, started⟩
    exact ⟨_, _, (admits_of_ofConfig started).1⟩
  · rintro ⟨schema, suffixes, admits⟩
    exact exists_ofConfig admits

/-- Two partitions, one of them with a first entry, written with the longer name of its type. -/
theorem starts_iff_admitted_twice :
    ∃ (config : Config) (service : Service) (start : NamingContexts),
      ofConfig config = .ok (service, start) ∧
      start.suffixes.map Dn.normalized = (["o=a", "dc=b"] : List Text) ∧
      (start.partitions.map fun opened => opened.store.values.flatMap fun entry =>
        entry.attributes.values.map Attribute.id) =
          ([["o", "objectClass"], []] : List (List Text)) ∧
      config.Admits service.agent.schema start.suffixes ∧
      List.Forall₂ (fun partition opened => opened.id = partition.id ∧
          opened.store.values =
            (partition.initial? service.agent.schema opened.suffix).toList)
        config.partitions start.partitions := by
  have run : (do
      let built ← ofConfig { partitions := [
        { id := "p", suffix := "organizationName=A", contextValues? := some (.ofList
          [("OBJECTCLASS", ["organization"]), ("organizationName", ["a"])]) },
        { id := "q", suffix := "dc=b" }] }
      Except.ok (built.2.suffixes.map Dn.normalized, built.2.partitions.map fun opened =>
        opened.store.values.flatMap fun entry => entry.attributes.values.map Attribute.id)) =
          Except.ok (ε := Error) ((["o=a", "dc=b"] : List Text),
            ([["o", "objectClass"], []] : List (List Text))) := by
    decide +kernel
  obtain ⟨⟨service, start⟩, started, run⟩ := bind_eq_ok_iff.mp run
  obtain ⟨suffixes, ids⟩ := Prod.mk.inj (Except.ok.inj run)
  have admitted := (starts_iff_admitted _).2 service start started
  exact ⟨_, service, start, started, suffixes, ids, admitted.1, admitted.2⟩

end Service

end Directory
