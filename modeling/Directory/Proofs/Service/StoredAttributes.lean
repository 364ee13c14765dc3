import Directory.Proofs.Entry.Identifiers
import Directory.Proofs.Entry.ValueSets
import Directory.Proofs.Service.Runs

namespace Directory

open Text

/-! # Attributes of stored entries

The identifiers of stored attributes are canonical, since an agent brings those of a request to
canonical form.  Their values differ as long as no request replaces them by values among which one
comes up twice. -/

namespace Agent

variable {agent : Agent} {partition : Partition} {entry : Entry} {key : Text}

theorem identifiedBy_renamed {ids : Text → Prop} (identified : entry.IdentifiedBy ids) (target : Dn)
    (old : Rdn) {rdn? : Option Rdn} (isId : ∀ rdn ∈ rdn?, ids rdn.normType) (deleteOld : Bool) :
    (renamed entry target old rdn? deleteOld).IdentifiedBy ids :=
  renamed_induction identified (fun rdn isNew _ kept => kept.pushValue (isId rdn isNew) rdn.value)
    fun _ kept => kept.removeValue old.normType old.value

/-- The identifiers in what a write brings are those of stored entries, canonical ones, and the
type of the naming step that the request gives. -/
theorem Prepares.identifiedBy_entry {ids : Text → Prop} {request : Request}
    {write : Partition.Write} (prepared : agent.Prepares partition request write)
    (canonical : ∀ name, ids (agent.schema.canonicalId name))
    (stepId : ∀ dn superior? given deleteOld rdn,
      request = .move dn superior? (some given) deleteOld →
        agent.schema.normalizeRdn given = .ok rdn → ids rdn.normType)
    (held : ∀ entry ∈ partition.store.values, entry.IdentifiedBy ids)
    (brought : write.entry? = some entry) : entry.IdentifiedBy ids := by
  cases prepared with
  | delete normalized => contradiction
  | add given accepted =>
    cases brought
    obtain ⟨dn, _, same⟩ := bind_eq_ok_iff.mp given
    cases same
    exact agent.schema.identifiedBy_normalizeEntry fun attr _ => canonical attr.id
  | modify normalized stored changed accepted =>
    cases brought
    have identified := held _ (KeyTable.mem_values_iff.mpr ⟨_, stored⟩)
    refine identified.modified (fun change listed => ?_) changed
    obtain ⟨written, _, rfl⟩ := List.mem_map.mp listed
    exact canonical written.id
  | @move given dn givenSuperior? superior? givenRdn? rdn? deleteOld old above before moved
      normalized superiorNormalized rdnNormalized named stored renames accepted =>
    cases brought
    have identified := held _ (KeyTable.mem_values_iff.mpr ⟨_, stored⟩)
    refine renames ▸ identifiedBy_renamed identified _ _ (fun rdn isNew => ?_) _
    cases givenRdn? with
    | none =>
      cases rdnNormalized
      contradiction
    | some step =>
      obtain ⟨first, stepNormalized, same⟩ := mapM_some_eq_ok_iff.mp rdnNormalized
      cases same
      cases isNew
      exact stepId _ _ _ _ _ rfl stepNormalized

theorem apartAt_canonicalEntry {given : Entry} (canonical : agent.canonicalEntry given = .ok entry)
    (key : Text) : entry.ApartAt key := by
  obtain ⟨dn, _, same⟩ := bind_eq_ok_iff.mp canonical
  cases same
  exact agent.schema.apartAt_normalizeEntry given key

theorem apartAt_renamed (apart : entry.ApartAt key) (target : Dn) (old : Rdn) (rdn? : Option Rdn)
    (deleteOld : Bool) : (renamed entry target old rdn? deleteOld).ApartAt key :=
  renamed_induction apart (fun rdn _ _ kept => kept.pushValue rdn.normType rdn.value)
    fun _ kept => kept.removeValue old.normType old.value

/-- The entry that a write brings keeps the values under a key apart unless the request replaces
them by others that are not. -/
theorem Prepares.apartAt_entry {request : Request} {write : Partition.Write}
    (prepared : agent.Prepares partition request write)
    (held : ∀ entry ∈ partition.store.values, entry.ApartAt key)
    (given : ∀ dn changes, request = .modify dn changes → ∀ change ∈ changes,
      change.kind = .replace → asciiLower (agent.schema.canonicalId change.id) = key →
        AreApart change.values)
    (brought : write.entry? = some entry) : entry.ApartAt key := by
  cases prepared with
  | delete normalized => contradiction
  | add canonical accepted =>
    cases brought
    exact apartAt_canonicalEntry canonical key
  | modify normalized stored changed accepted =>
    cases brought
    have apart := held _ (KeyTable.mem_values_iff.mpr ⟨_, stored⟩)
    refine apart.modified (fun change listed => ?_) changed
    obtain ⟨written, isWritten, rfl⟩ := List.mem_map.mp listed
    exact given _ _ rfl written isWritten
  | move normalized superiorNormalized rdnNormalized named stored renames accepted =>
    cases brought
    have apart := held _ (KeyTable.mem_values_iff.mpr ⟨_, stored⟩)
    exact renames ▸ apartAt_renamed apart _ _ _ _

end Agent

namespace Service

variable {config : Config} {service : Service} {start : NamingContexts}

/-- Whatever a service went through, the identifiers of stored attributes are canonical. -/
theorem Reachable.identifiedBy {contexts : NamingContexts}
    (reached : Reachable config service contexts) :
    ∀ partition ∈ contexts.partitions, ∀ entry ∈ partition.store.values,
      entry.IdentifiedBy service.agent.schema.IsCanonicalId := by
  refine reached.entries (fun entry origin same identified => ?_) ?_
  · rwa [Entry.IdentifiedBy, same.attributes]
  · intro request partition write prepared held entry
    exact prepared.identifiedBy_entry service.agent.schema.isCanonicalId_canonicalId
      (fun _ _ _ _ _ _ => Schema.isCanonicalId_of_normalizeRdn) held

/-- The event is a modification that replaces the values under a key by values among which one
comes up twice. -/
def Event.RepeatsValues (schema : Schema) (key : Text) : Event → Prop
  | .call _ _ _ (.modify _ changes) => ∃ change ∈ changes, change.kind = .replace ∧
      asciiLower (schema.canonicalId change.id) = key ∧ ¬ AreApart change.values
  | _ => False

/-- What the agent is asked to replace was written by the caller, or is a stamp. -/
theorem areApart_of_submission? {event : Event} {dn : Dn} {changes : List Modification}
    {mode : ReferralMode} {schema : Schema} {key : Text}
    (submitted : service.submission? event = some (.modify dn changes, mode))
    (clear : ¬ event.RepeatsValues schema key) :
    ∀ change ∈ changes, change.kind = .replace →
      asciiLower (schema.canonicalId change.id) = key → AreApart change.values := by
  intro change listed replaces addressed
  by_contra repeated
  cases event with
  | seed entry => simp [submission?] at submitted
  | call principal? mode? now command =>
    obtain ⟨given, read, becomes⟩ := becomes_of_submission? submitted
    have written (text : Text) (changes : List Modification) (isModify : command = .modify text changes)
        (isWritten : change ∈ changes) : False := by
      subst isModify
      exact clear ⟨change, isWritten, replaces, addressed, repeated⟩
    have modifies (changes : List Modification) (read : command.request = .ok (.modify dn changes)) :
        ∃ text, command = .modify text changes := by
      cases command <;> simp only [Command.request, bind_eq_ok_iff] at read <;> grind
    cases becomes with
    | unchanged =>
      obtain ⟨text, isModify⟩ := modifies changes read
      exact written text changes isModify listed
    | modify single =>
      obtain ⟨text, isModify⟩ := modifies _ read
      rcases List.mem_append.mp listed with listed | stamped
      · exact written text _ isModify listed
      · obtain ⟨value, one⟩ := List.length_eq_one_iff.mp (single change stamped)
        rw [one] at repeated
        exact repeated (List.pairwise_singleton _ _)

theorem apartAt_after (started : ofConfig config = .ok (service, start)) {events : List Event}
    {key : Text} (clear : ∀ event ∈ events, ¬ event.RepeatsValues service.agent.schema key) :
    ∀ partition ∈ (service.after start events).partitions, ∀ entry ∈ partition.store.values,
      entry.ApartAt key := by
  refine entries_after started (fun entry origin same originApart => ?_) ?_
  · rwa [Entry.ApartAt, same.attributes]
  · intro event listed request mode submitted partition write prepared apart entry
    have harmless : ¬ event.RepeatsValues service.agent.schema key := by
      rcases listed with ⟨seeded, rfl⟩ | called
      · exact id
      · exact clear event called
    refine prepared.apartAt_entry apart ?_
    rintro dn changes rfl
    exact areApart_of_submission? submitted harmless

/-- After any run the values of a stored attribute are apart, unless an event of the run replaced
the attribute by values of which one comes up twice.  A single change to an entry whose values
are apart keeps them so exactly if it is no replacement of that kind. -/
theorem values_apart_until_replaced (started : ofConfig config = .ok (service, start))
    (events : List Event) :
    ∀ partition ∈ (service.after start events).partitions, ∀ entry ∈ partition.store.values,
      (∀ key attr, entry.attributes.get? key = some attr → AreApart attr.values ∨
        ∃ event ∈ events, event.RepeatsValues service.agent.schema key) ∧
      ((∀ key, entry.ApartAt key) → ∀ change : Modification,
        ((∀ key, (entry.applyOne change).2.ApartAt key) ↔
          (change.kind = .replace → AreApart change.values))) := by
  intro partition listed entry held
  refine ⟨fun key attr found => ?_, fun apart change => Entry.applyOne_apart_iff apart⟩
  by_cases clear : ∀ event ∈ events, ¬ event.RepeatsValues service.agent.schema key
  · exact .inl (apartAt_after started clear partition listed entry held attr found)
  · simp only [not_forall, not_not] at clear
    obtain ⟨event, isEvent, repeats⟩ := clear
    exact .inr ⟨event, isEvent, repeats⟩

/-- A value that is there in another letter case is refused; two new ones replace the first. -/
theorem values_apart_until_replaced_anew :
    ∃ (service : Service) (start : NamingContexts) (events : List Event),
      ofConfig (.single "p" "o=a" [("objectClass", ["organization"]), ("o", ["a"])]) =
        .ok (service, start) ∧
      ((service.after start events).partitions.flatMap fun partition =>
        partition.store.values.flatMap fun entry => entry.values "description") =
          (["two", "three"] : List Text) ∧
      ∀ partition ∈ (service.after start events).partitions, ∀ entry ∈ partition.store.values,
        (∀ key attr, entry.attributes.get? key = some attr → AreApart attr.values ∨
          ∃ event ∈ events, event.RepeatsValues service.agent.schema key) ∧
        ((∀ key, entry.ApartAt key) → ∀ change : Modification,
          ((∀ key, (entry.applyOne change).2.ApartAt key) ↔
            (change.kind = .replace → AreApart change.values))) := by
  have run : (do
      let built ← ofConfig
        (.single "p" "o=a" [("objectClass", ["organization"]), ("o", ["a"])])
      let contexts := built.1.after built.2 [
        .call (some "o=a") none ⟨2024, 1, 1, 0, 0, 0⟩
          (.modify "o=a" [⟨.add, "description", ["one"]⟩]),
        .call (some "o=a") none ⟨2024, 1, 1, 0, 0, 1⟩
          (.modify "o=a" [⟨.add, "2.5.4.13", ["ONE"]⟩]),
        .call (some "o=a") none ⟨2024, 1, 1, 0, 0, 2⟩
          (.modify "o=a" [⟨.replace, "description", ["two", "three"]⟩])]
      Except.ok (contexts.partitions.flatMap fun partition =>
        partition.store.values.flatMap fun entry => entry.values "description")) =
          Except.ok (ε := Error) (["two", "three"] : List Text) := by
    decide +kernel
  obtain ⟨⟨service, start⟩, started, run⟩ := bind_eq_ok_iff.mp run
  exact ⟨service, start, _, started, Except.ok.inj run, values_apart_until_replaced started _⟩

/-- A replacement by two spellings of one value is accepted. -/
theorem replacement_stores_value_twice :
    ∃ (service : Service) (contexts : NamingContexts),
      Reachable (.single "p" "o=a" [("objectClass", ["organization"]), ("o", ["a"])]) service
        contexts ∧
      ∃ partition ∈ contexts.partitions, ∃ entry ∈ partition.store.values,
        ∃ attr ∈ entry.attributes.values, ¬ AreApart attr.values := by
  have run : (do
      let built ← ofConfig
        (.single "p" "o=a" [("objectClass", ["organization"]), ("o", ["a"])])
      let contexts := built.1.after built.2 [.call (some "o=a") none ⟨2024, 1, 1, 0, 0, 0⟩
        (.modify "o=a" [⟨.replace, "description", ["one", "ONE"]⟩])]
      Except.ok (decide (∃ partition ∈ contexts.partitions, ∃ entry ∈ partition.store.values,
        ∃ attr ∈ entry.attributes.values, ¬ AreApart attr.values))) =
          Except.ok (ε := Error) true := by
    decide +kernel
  obtain ⟨⟨service, start⟩, started, run⟩ := bind_eq_ok_iff.mp run
  exact ⟨service, _, (Reachable.atStart started).after _, of_decide_eq_true (Except.ok.inj run)⟩

end Service

end Directory
