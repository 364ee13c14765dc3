import Directory.Proofs.Agent.Refusals
import Directory.Proofs.Entry.Values

namespace Directory

/-! # Stored entries for whoever manages delegations

To a caller who manages delegations no delegation matters: what is stored is read, compared and
modified like any entry.  So what the agent answers on a stored entry depends on the entry alone,
save for what a modified entry may conflict with. -/

namespace Entry

variable {entry : Entry} {id value : Text} {changes stamps : List Modification} {refusal : Error}

theorem modified_cons (entry : Entry) (change : Modification) (rest : List Modification) :
    entry.modified (change :: rest) =
      (entry.applyOne change).1 >>= fun _ => (entry.applyOne change).2.modified rest := by
  rw [modified, apply]
  cases entry.applyOne change with
  | mk answer changed => cases answer <;> rfl

theorem modified_append (entry : Entry) (earlier later : List Modification) :
    entry.modified (earlier ++ later) =
      entry.modified earlier >>= fun middle => middle.modified later := by
  induction earlier generalizing entry with
  | nil => rfl
  | cons change rest ih =>
    rw [List.cons_append, modified_cons, modified_cons, bind_assoc]
    exact congrArg _ (funext fun _ => ih _)

theorem modified_concat_replace_eq_ok_iff {after : Entry} {values : List Text} :
    entry.modified (changes ++ [⟨.replace, id, values⟩]) = .ok after ↔
      ∃ middle, entry.modified changes = .ok middle ∧ middle.put id values = after := by
  have sets (middle : Entry) :
      middle.modified [⟨.replace, id, values⟩] = .ok (middle.put id values) := rfl
  simp only [modified_append, bind_eq_ok_iff, sets, Except.ok.injEq]

theorem modified_of_replacing (replacing : ∀ stamp ∈ stamps, stamp.kind = .replace)
    (entry : Entry) : ∃ after, entry.modified stamps = .ok after := by
  induction stamps generalizing entry with
  | nil => exact ⟨entry, rfl⟩
  | cons stamp rest ih =>
    obtain ⟨stampReplaces, restReplaces⟩ := List.forall_mem_cons.mp replacing
    rw [modified_cons, applyOne, stampReplaces]
    exact ih restReplaces _

/-- Setting values comes after what a change is refused for. -/
theorem modified_eq_error_iff {change : Modification}
    (replacing : ∀ stamp ∈ stamps, stamp.kind = .replace) :
    entry.modified (change :: stamps) = .error refusal ↔
      (entry.applyOne change).1 = .error refusal := by
  rw [modified_cons, bind_eq_error_iff]
  refine ⟨fun refused => refused.resolve_right ?_, .inl⟩
  rintro ⟨_, _, later⟩
  obtain ⟨after, sets⟩ := modified_of_replacing replacing (entry.applyOne change).2
  cases sets.symm.trans later

theorem applyOne_add_eq_error_iff : (entry.applyOne ⟨.add, id, [value]⟩).1 = .error refusal ↔
    (∃ held ∈ entry.values id, Text.sameIgnoringCase held value = true) ∧
      refusal = .attributeOrValueExists id value := by
  rw [← List.any_eq_true, ← containsValue_eq, applyOne]
  simp only [addValues]
  cases entry.containsValue id value <;> simp [eq_comm]

theorem applyOne_remove_eq_error_iff : (entry.applyOne ⟨.remove, id, [value]⟩).1 = .error refusal ↔
    (¬ ∃ held ∈ entry.values id, Text.sameIgnoringCase held value = true) ∧
      refusal = entry.lacks id := by
  rw [← List.any_eq_true, ← containsValue_eq, applyOne]
  simp only [removeValues]
  cases entry.containsValue id value <;> simp [eq_comm]

end Entry

namespace Agent

variable {agent : Agent} {contexts : NamingContexts} {given dn : Dn} {partition : Partition}
  {entry : Entry} {changes : List Modification} {attr value : Text} {type : AttributeType}
  {refusal : Error}

/-- The name, in the way it was given, leads to a stored entry. -/
structure Finds (agent : Agent) (contexts : NamingContexts) (given dn : Dn) (partition : Partition)
    (entry : Entry) : Prop where
  normalized : agent.schema.normalizeDn given = .ok dn
  resolved : contexts.resolve? dn = some partition
  stored : partition.store.find? dn = some entry

theorem classify_manageDsaIt (agent : Agent) (kind : OperationKind)
    (stored : partition.store.find? dn = some entry) :
    agent.classify kind .manageDsaIt partition dn = .proceed := by
  simp [classify, ReferralPolicy.classify, Outcome.decide, ReferralMode.managesDsaIt, stored]

theorem Finds.read_eq (finds : agent.Finds contexts given dn partition entry)
    (kind : OperationKind) : agent.read contexts kind given .manageDsaIt = .ok entry := by
  simp only [read, finds.normalized, covering, finds.resolved, agent.classify_manageDsaIt kind
    finds.stored, existing, finds.stored, bind, Except.bind, Outcome.result]

theorem lookup_manageDsaIt_eq_ok_iff : agent.lookup contexts given .manageDsaIt = .ok entry ↔
    ∃ dn partition, agent.Finds contexts given dn partition entry := by
  constructor
  · intro found
    simp only [lookup, read, bind_eq_ok_iff] at found
    obtain ⟨dn, normalized, partition, covered, _, _, stored⟩ := found
    exact ⟨dn, partition, normalized, covering_eq_ok_iff.mp covered, existing_eq_ok_iff.mp stored⟩
  · rintro ⟨dn, partition, finds⟩
    exact finds.read_eq .lookup

theorem asserts_eq_ok_true_iff (known : agent.schema.attributeType? attr = some type) :
    agent.asserts entry attr value = .ok true ↔
      ∃ held ∈ Schema.valuesOf type entry, type.equality.equates held value = true := by
  rw [asserts, known, ← List.any_eq_true]
  simp only [bind_eq_ok_iff, refuseIf_eq_ok_iff, Except.ok.injEq]
  cases Schema.valuesOf type entry <;> simp

theorem Finds.compared_iff (finds : agent.Finds contexts given dn partition entry)
    (known : agent.schema.attributeType? attr = some type) :
    (agent.answer contexts (.compare given attr value) .manageDsaIt).1 = .ok (.compared true) ↔
      ∃ held ∈ Schema.valuesOf type entry, type.equality.equates held value = true := by
  rw [← agent.asserts_eq_ok_true_iff known, answer, map_eq_ok_iff, compare, finds.read_eq]
  simp [bind, Except.bind]

theorem Finds.planModify_eq (finds : agent.Finds contexts given dn partition entry)
    (changes : List Modification) : agent.planModify contexts given changes .manageDsaIt = (do
      let modified ← entry.modified (changes.map agent.schema.canonicalChange)
      agent.schema.validate modified
      .ok ⟨partition.id, .update modified⟩) := by
  simp only [planModify, finds.normalized, covering, finds.resolved, agent.classify_manageDsaIt
    .modify finds.stored, existing, finds.stored, bind, Except.bind, Outcome.result]
  rfl

/-- A refusal that is neither of the schema's nor of the store's comes from the changes. -/
theorem Finds.modify_eq_error_iff (finds : agent.Finds contexts given dn partition entry)
    (conforming : refusal.isNonconformance = false) (placed : refusal.isMisplacement = false) :
    (agent.answer contexts (.modify given changes) .manageDsaIt).1 = .error refusal ↔
      entry.modified (changes.map agent.schema.canonicalChange) = .error refusal := by
  rw [answer, finds.planModify_eq]
  cases entry.modified (changes.map agent.schema.canonicalChange) with
  | error early => simp [commit, bind, Except.bind]
  | ok after =>
    refine iff_of_false (fun refused => ?_) (by simp)
    have validates := agent.schema.checksConformance_validate after
    have performs := contexts.checksPlacement_perform partition.id (.update after)
    cases accepted : agent.schema.validate after with
    | error late =>
      obtain rfl : late = refusal := by simpa [bind, Except.bind, accepted, commit] using refused
      simp [validates late accepted] at conforming
    | ok =>
      simp only [bind, Except.bind, accepted, commit] at refused
      cases performed : (contexts.perform partition.id (.update after)).1 with
      | ok => simp [performed, Except.map] at refused
      | error late =>
        obtain rfl : late = refusal := by simpa [performed, Except.map] using refused
        simp [performs late performed] at placed

end Agent

end Directory
