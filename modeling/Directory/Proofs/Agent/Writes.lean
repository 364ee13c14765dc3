import Directory.Agent.Answer
import Directory.Proofs.Partition.Contexts

namespace Directory

/-! # What an agent writes

An agent answers a request with at most one write on one partition.  The write brings an entry
that the schema accepts: the given one in canonical form, or one that the partition holds, modified
or renamed. -/

def Schema.canonicalChange (schema : Schema) (change : Modification) : Modification :=
  { change with id := schema.canonicalId change.id }

namespace Agent

/-- The writes that a request can come to on a partition. -/
inductive Prepares (agent : Agent) (partition : Partition) : Request → Partition.Write → Prop where
  | add {given entry : Entry}
      (canonical : agent.canonicalEntry given = .ok entry)
      (accepted : agent.schema.validate entry = .ok ()) :
      Prepares agent partition (.add given) (.create entry)
  | modify {given dn : Dn} {changes : List Modification} {before after : Entry}
      (normalized : agent.schema.normalizeDn given = .ok dn)
      (stored : partition.store.find? dn = some before)
      (changed : before.modified (changes.map agent.schema.canonicalChange) = .ok after)
      (accepted : agent.schema.validate after = .ok ()) :
      Prepares agent partition (.modify given changes) (.update after)
  | delete {given dn : Dn} (normalized : agent.schema.normalizeDn given = .ok dn) :
      Prepares agent partition (.delete given) (.delete dn)
  | move {given dn : Dn} {givenSuperior? superior? : Option Dn} {givenRdn? rdn? : Option Rdn}
      {deleteOld : Bool} {old : Rdn} {above : List Rdn} {before moved : Entry}
      (normalized : agent.schema.normalizeDn given = .ok dn)
      (superiorNormalized : givenSuperior?.mapM agent.schema.normalizeDn = .ok superior?)
      (rdnNormalized : givenRdn?.mapM agent.schema.normalizeRdn = .ok rdn?)
      (named : dn.rdns = old :: above)
      (stored : partition.store.find? dn = some before)
      (renames : renamed before ((superior?.getD ⟨above⟩).child (rdn?.getD old)) old rdn?
        deleteOld = moved)
      (accepted : agent.schema.validate moved = .ok ()) :
      Prepares agent partition (.move given givenSuperior? givenRdn? deleteOld)
        (.relocate dn moved)

/-- A plan for a partition of the naming contexts. -/
structure Plan.Serves (plan : Plan) (agent : Agent) (contexts : NamingContexts)
    (request : Request) (partition : Partition) : Prop where
  member : partition ∈ contexts.partitions
  addressed : plan.partition = partition.id
  prepared : agent.Prepares partition request plan.write

variable {agent : Agent} {contexts : NamingContexts} {partition : Partition} {dn : Dn}
  {entry : Entry} {mode : ReferralMode} {plan : Plan}

theorem Prepares.isWrite {request : Request} {write : Partition.Write}
    (prepared : agent.Prepares partition request write) : request.kind.isWrite = true := by
  cases prepared <;> rfl

theorem covering_eq_ok_iff :
    covering contexts dn = .ok partition ↔ contexts.resolve? dn = some partition := by
  unfold covering
  split <;> simp_all

theorem existing_eq_ok_iff :
    existing partition dn = .ok entry ↔ partition.store.find? dn = some entry := by
  unfold existing
  split <;> simp_all

theorem mem_of_covering (covered : covering contexts dn = .ok partition) :
    partition ∈ contexts.partitions :=
  (NamingContexts.mem_of_resolve? (covering_eq_ok_iff.mp covered)).1

theorem serves_planAdd {given : Entry} (planned : agent.planAdd contexts given mode = .ok plan) :
    ∃ partition, plan.Serves agent contexts (.add given) partition := by
  simp only [planAdd, bind_eq_ok_iff] at planned
  obtain ⟨entry, canonical, partition, covered, _, _, _, accepted, _, _, same⟩ := planned
  cases same
  exact ⟨partition, mem_of_covering covered, rfl, .add canonical accepted⟩

theorem serves_planModify {given : Dn} {changes : List Modification}
    (planned : agent.planModify contexts given changes mode = .ok plan) :
    ∃ partition, plan.Serves agent contexts (.modify given changes) partition := by
  simp only [planModify, bind_eq_ok_iff] at planned
  obtain ⟨dn, normalized, partition, covered, _, _, before, stored, after, changed, _, accepted,
    same⟩ := planned
  cases same
  exact ⟨partition, mem_of_covering covered, rfl,
    .modify normalized (existing_eq_ok_iff.mp stored) changed accepted⟩

theorem serves_planDelete {given : Dn}
    (planned : agent.planDelete contexts given mode = .ok plan) :
    ∃ partition, plan.Serves agent contexts (.delete given) partition := by
  simp only [planDelete, bind_eq_ok_iff] at planned
  obtain ⟨dn, normalized, partition, covered, _, _, _, _, same⟩ := planned
  cases same
  exact ⟨partition, mem_of_covering covered, rfl, .delete normalized⟩

theorem planRelocation_eq_ok {old : Rdn} {above : List Rdn} {superior? : Option Dn}
    {rdn? : Option Rdn} {deleteOld : Bool}
    (planned : agent.planRelocation contexts partition dn old above superior? rdn? deleteOld mode =
      .ok plan) :
    ∃ before moved, partition.store.find? dn = some before ∧
      renamed before ((superior?.getD ⟨above⟩).child (rdn?.getD old)) old rdn? deleteOld = moved ∧
      agent.schema.validate moved = .ok () ∧ plan = ⟨partition.id, .relocate dn moved⟩ := by
  simp only [planRelocation, bind_eq_ok_iff] at planned
  obtain ⟨_, _, destination?, _, _, _, planned⟩ := planned
  cases destination? <;> simp only [bind_eq_ok_iff] at planned
  all_goals
    obtain ⟨_, _, _, _, _, _, before, stored, _, accepted, same⟩ := planned
    exact ⟨before, _, existing_eq_ok_iff.mp stored, rfl, accepted, (Except.ok.inj same).symm⟩

theorem serves_planMove {given : Dn} {superior? : Option Dn} {rdn? : Option Rdn} {deleteOld : Bool}
    (planned : agent.planMove contexts given superior? rdn? deleteOld mode = .ok plan) :
    ∃ partition, plan.Serves agent contexts (.move given superior? rdn? deleteOld) partition := by
  simp only [planMove, bind_eq_ok_iff] at planned
  obtain ⟨_, _, dn, normalized, superior?, superiorNormalized, rdn?, rdnNormalized, partition,
    covered, planned⟩ := planned
  cases named : dn.rdns with
  | nil => simp [named] at planned
  | cons old above =>
    rw [named] at planned
    obtain ⟨before, moved, stored, renames, accepted, rfl⟩ := planRelocation_eq_ok planned
    exact ⟨partition, mem_of_covering covered, rfl,
      .move normalized superiorNormalized rdnNormalized named stored renames accepted⟩

theorem commit_cases {request : Request} {plan : Except Error Plan}
    (distinct : contexts.HasDistinctIds)
    (serves : ∀ made, plan = .ok made → ∃ partition, made.Serves agent contexts request partition) :
    (commit contexts plan).2 = contexts ∨ ∃ partition write,
      (commit contexts plan).1 = .ok .done ∧ agent.Prepares partition request write ∧
        contexts.Performs partition write (commit contexts plan).2 := by
  cases plan with
  | error refusal => exact .inl rfl
  | ok made =>
    obtain ⟨partition, member, addressed, prepared⟩ := serves made rfl
    have carried := NamingContexts.perform_cases distinct member made.write
    simp only [commit, addressed]
    refine carried.imp_right ?_
    rintro ⟨answered, performed⟩
    exact ⟨partition, made.write, by rw [answered]; rfl, prepared, performed⟩

theorem performs_of_commit {request : Request} {response : Response} {plan : Except Error Plan}
    (distinct : contexts.HasDistinctIds)
    (serves : ∀ made, plan = .ok made → ∃ partition, made.Serves agent contexts request partition)
    (answered : (commit contexts plan).1 = .ok response) :
    ∃ partition write, agent.Prepares partition request write ∧
      contexts.Performs partition write (commit contexts plan).2 := by
  cases plan with
  | error refusal => contradiction
  | ok made =>
    obtain ⟨partition, member, addressed, prepared⟩ := serves made rfl
    simp only [commit, addressed] at answered ⊢
    obtain ⟨_, carried, _⟩ := map_eq_ok_iff.mp answered
    exact ⟨partition, made.write, prepared,
      NamingContexts.performs_of_perform distinct member carried⟩

/-- An answer leaves the naming contexts as they are, or says that the one prepared write was
carried out. -/
theorem answer_cases (distinct : contexts.HasDistinctIds) (agent : Agent) (request : Request)
    (mode : ReferralMode) :
    (agent.answer contexts request mode).2 = contexts ∨ ∃ partition write,
      (agent.answer contexts request mode).1 = .ok .done ∧
        agent.Prepares partition request write ∧
        contexts.Performs partition write (agent.answer contexts request mode).2 := by
  cases request with
  | add given => exact commit_cases distinct fun _ => serves_planAdd
  | modify dn changes => exact commit_cases distinct fun _ => serves_planModify
  | delete dn => exact commit_cases distinct fun _ => serves_planDelete
  | move dn superior? rdn? deleteOld => exact commit_cases distinct fun _ => serves_planMove
  | search | compare | lookup | «exists» => exact .inl rfl

theorem found_of_answer {request : Request} {result : SearchResult}
    (answered : (agent.answer contexts request mode).1 = .ok (.found result)) :
    ∃ given scope filter, request = .search given scope filter ∧
      agent.search contexts given scope filter mode = .ok result := by
  have unfound (plan : Except Error Plan) : (commit contexts plan).1 ≠ .ok (.found result) := by
    intro found
    cases plan with
    | error refusal => contradiction
    | ok made =>
      obtain ⟨_, _, same⟩ := map_eq_ok_iff.mp found
      contradiction
  cases request with
  | add | modify | delete | move => exact absurd answered (unfound _)
  | search given scope filter =>
    obtain ⟨found, searched, same⟩ := map_eq_ok_iff.mp answered
    cases same
    exact ⟨given, scope, filter, rfl, searched⟩
  | compare | lookup | «exists» =>
    obtain ⟨_, _, same⟩ := map_eq_ok_iff.mp answered
    contradiction

end Agent

end Directory
