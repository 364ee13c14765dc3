import Directory.Proofs.Name.Canonical
import Directory.Proofs.Partition.Writes
import Directory.Proofs.Service.Runs

namespace Directory

/-! # A service keeps trees

The names that an agent writes are in canonical form.  If no primary name of the schema holds an
equals sign, they are plain, and every partition of a reachable state is a tree.  Without that
condition a partition is still filed. -/

/-- No compared type of a stored name holds an equals sign, in any partition. -/
def NamingContexts.HasPlainNames (contexts : NamingContexts) : Prop :=
  ∀ partition ∈ contexts.partitions, partition.store.HasPlainNames

instance (contexts : NamingContexts) : Decidable contexts.HasPlainNames :=
  inferInstanceAs (Decidable (∀ _ ∈ _, _))

/-- The settings of one partition, whose schema calls a type `x=1,cn`. -/
def Config.oddlyNamed (first : List (Text × List Text)) : Config :=
  { Config.single "p" "o=a" first with schema := .oddlyNamed }

namespace Agent

variable {agent : Agent} {partition : Partition} {request : Request} {write : Partition.Write}

theorem normalizeDn_target {given dn : Dn} {givenSuperior? superior? : Option Dn}
    {givenRdn? rdn? : Option Rdn} {old : Rdn} {above : List Rdn}
    (normalized : agent.schema.normalizeDn given = .ok dn)
    (superiorNormalized : givenSuperior?.mapM agent.schema.normalizeDn = .ok superior?)
    (rdnNormalized : givenRdn?.mapM agent.schema.normalizeRdn = .ok rdn?)
    (steps : dn.rdns = old :: above) :
    agent.schema.normalizeDn ((superior?.getD ⟨above⟩).child (rdn?.getD old)) =
      .ok ((superior?.getD ⟨above⟩).child (rdn?.getD old)) := by
  obtain ⟨_, _, _, oldNormalized, aboveNormalized⟩ := Schema.normalizeDn_eq_cons normalized steps
  refine Schema.normalizeDn_child ?_ ?_
  · cases givenSuperior? with
    | none =>
      cases superiorNormalized
      exact Schema.normalizeDn_self aboveNormalized
    | some given =>
      obtain ⟨superior, same, rfl⟩ := mapM_some_eq_ok_iff.mp superiorNormalized
      exact Schema.normalizeDn_self same
  · cases givenRdn? with
    | none =>
      cases rdnNormalized
      exact Schema.normalizeRdn_self oldNormalized
    | some given =>
      obtain ⟨rdn, same, rfl⟩ := mapM_some_eq_ok_iff.mp rdnNormalized
      exact Schema.normalizeRdn_self same

theorem Prepares.hasPlainTypes (prepared : agent.Prepares partition request write)
    (named : agent.schema.HasPlainNames) (plain : partition.store.HasPlainNames) :
    ∀ dn ∈ write.names, dn.HasPlainTypes := by
  cases prepared with
  | add canonical accepted =>
    obtain ⟨dn, normalized, same⟩ := bind_eq_ok_iff.mp canonical
    cases same
    simpa [Partition.Write.names] using Schema.hasPlainTypes_of_normalizeDn named normalized
  | modify normalized stored changed accepted =>
    have listed := KeyTable.mem_values_iff.mpr ⟨_, stored⟩
    simpa [Partition.Write.names, Entry.dn_of_modified changed] using plain _ listed
  | delete normalized =>
    simpa [Partition.Write.names] using Schema.hasPlainTypes_of_normalizeDn named normalized
  | move normalized superiorNormalized rdnNormalized steps stored renames accepted =>
    have sourcePlain := Schema.hasPlainTypes_of_normalizeDn named normalized
    have targetPlain := Schema.hasPlainTypes_of_normalizeDn named
      (normalizeDn_target normalized superiorNormalized rdnNormalized steps)
    simpa [Partition.Write.names, ← renames] using And.intro sourcePlain targetPlain

end Agent

namespace Service

variable {config : Config} {service : Service} {contexts left right : NamingContexts}

theorem Reachable.isFiled (reached : Reachable config service contexts) :
    ∀ partition ∈ contexts.partitions, partition.suffix.isRoot = false ∧
      partition.store.IsFiled partition.suffix := by
  refine reached.partitions (fun id suffix named => ⟨named, Store.isFiled_empty suffix⟩) ?_
  intro request partition write prepared admitted filed
  exact ⟨filed.1, Partition.isFiled_effect filed.2 admitted⟩

theorem Reachable.isTree (reached : Reachable config service contexts)
    (named : service.agent.schema.HasPlainNames) :
    ∀ partition ∈ contexts.partitions, partition.store.IsTree partition.suffix := by
  refine reached.partitions (fun id suffix _ => Store.isTree_empty suffix) ?_
  intro request partition write prepared admitted tree
  exact Partition.isTree_effect tree (prepared.hasPlainTypes named tree.hasPlainNames) admitted

theorem Reachable.hasPlainNames (reached : Reachable config service contexts)
    (named : service.agent.schema.HasPlainNames) : contexts.HasPlainNames :=
  fun partition listed => (reached.isTree named partition listed).hasPlainNames

/-- Whatever a service went through, it has the partitions that it started with. -/
theorem Reachable.frame_eq (leftReached : Reachable config service left)
    (rightReached : Reachable config service right) : left.frame = right.frame := by
  obtain ⟨start, leftEvents, started, rfl⟩ := leftReached
  obtain ⟨_, rightEvents, startedAgain, rfl⟩ := rightReached
  cases started.symm.trans startedAgain
  obtain ⟨_, opened, entries, isOpened, rfl⟩ := ofConfig_eq_ok started
  rw [← after_append, ← after_append, frame_after isOpened.distinct, frame_after isOpened.distinct]

end Service

end Directory
