import Directory.Proofs.Schema.Matching
import Directory.Proofs.Service.Access
import Directory.Proofs.Service.Stored

namespace Directory

open Text

/-! # When two values are one

A service adds a value unless it is there in some case of its ASCII letters, and takes away what
is there in some case of them, whatever the type of the attribute.  A comparison goes by the
matching rule of the type.  The two agree as far as the rule does with letter case. -/

/-- Stages leave the changes of a caller in front and set values after them. -/
theorem Stage.modify_of_passAll {now : Instant} {stages : List Stage} {given passed : Context}
    {dn : Dn} {changes : List Modification} (asked : given.request = .modify dn changes)
    (passes : passAll now stages given = (.ok (), passed)) :
    ∃ stamps, passed.request = .modify dn (changes ++ stamps) ∧
      ∀ stamp ∈ stamps, stamp.kind = .replace := by
  induction stages generalizing given changes with
  | nil =>
    cases passes
    exact ⟨[], by rw [asked, List.append_nil], nofun⟩
  | cons stage rest ih =>
    obtain ⟨middle, first, passes⟩ := passAll_cons_eq_ok_iff.mp passes
    cases stage with
    | tracing =>
      cases first
      exact ih asked passes
    | accessControl access =>
      obtain ⟨_, _, same⟩ := bind_eq_ok_iff.mp first
      cases same
      exact ih asked passes
    | operationalAttributes =>
      obtain ⟨stamps, stamped, replacing⟩ : ∃ stamps,
          given.request.stamped now.generalizedTime given.principal? =
              .modify dn (changes ++ stamps) ∧
            ∀ stamp ∈ stamps, stamp.kind = .replace := by
        rw [asked]
        cases given.principal? with
        | none => exact ⟨_, rfl, by simp⟩
        | some principal => exact ⟨_, congrArg _ (List.append_assoc ..), by simp⟩
      cases first
      obtain ⟨later, same, laterReplacing⟩ := ih stamped passes
      refine ⟨stamps ++ later, by rw [same, List.append_assoc], fun stamp listed => ?_⟩
      exact (List.mem_append.mp listed).elim (replacing stamp) (laterReplacing stamp)

namespace Service

variable {config : Config} {service : Service} {start contexts : NamingContexts}
  {partition : Partition} {entry : Entry} {given dn : Dn} {attr value : Text}
  {type : AttributeType} {principal? : Option Dn} {now : Instant}

/-- The answer to a caller who manages delegations. -/
def managed (service : Service) (now : Instant) (contexts : NamingContexts)
    (principal? : Option Dn) (request : Request) : Except Error Response :=
  (service.execute now contexts ⟨request, .manageDsaIt, principal?⟩).1.1

/-- One change of a caller who may modify is refused for what it finds in the entry. -/
theorem managed_modify_eq_error_iff (started : ofConfig config = .ok (service, start))
    (admitted : config.access.bars .modify principal? = false)
    (finds : service.agent.Finds contexts given dn partition entry) (change : Modification)
    {refusal : Error} (conforming : refusal.isNonconformance = false)
    (placed : refusal.isMisplacement = false) :
    service.managed now contexts principal? (.modify given [change]) = .error refusal ↔
      (entry.applyOne (service.agent.schema.canonicalChange change)).1 = .error refusal := by
  obtain ⟨passed, passes⟩ := exists_passAll started
    ⟨.modify given [change], .manageDsaIt, principal?⟩ admitted now
  obtain ⟨stamps, stamped, replacing⟩ := Stage.modify_of_passAll rfl passes
  have stillReplacing : ∀ stamp ∈ stamps.map service.agent.schema.canonicalChange,
      stamp.kind = .replace := by
    intro stamp listed
    obtain ⟨origin, originListed, rfl⟩ := List.mem_map.mp listed
    exact replacing origin originListed
  have sameMode : passed.mode = .manageDsaIt := (Stage.becomes_of_passAll passes).mode
  simp only [managed, execute, passes, stamped, sameMode]
  rw [finds.modify_eq_error_iff conforming placed, List.singleton_append, List.map_cons,
    Entry.modified_eq_error_iff stillReplacing]

theorem managed_compare_eq_of_reads (started : ofConfig config = .ok (service, start))
    (reads : config.access.bars .compare principal? = false) :
    service.managed now contexts principal? (.compare given attr value) =
      (service.agent.answer contexts (.compare given attr value) .manageDsaIt).1 := by
  obtain ⟨passed, passes⟩ := exists_passAll started
    ⟨.compare given attr value, .manageDsaIt, principal?⟩ reads now
  obtain ⟨becomes, sameMode, _⟩ := Stage.becomes_of_passAll passes
  simp only [managed, execute, passes, sameMode]
  generalize passed.request = request at becomes
  cases becomes
  rfl

/-- Whoever may modify may compare as well. -/
theorem managed_compare_eq (started : ofConfig config = .ok (service, start))
    (admitted : config.access.bars .modify principal? = false) :
    service.managed now contexts principal? (.compare given attr value) =
      (service.agent.answer contexts (.compare given attr value) .manageDsaIt).1 := by
  refine managed_compare_eq_of_reads started ?_
  cases principal? with
  | none => contradiction
  | some principal => rfl

/-- Adding the value is refused because it is there. -/
def RefusesAdding (service : Service) (now : Instant) (contexts : NamingContexts)
    (principal? : Option Dn) (given : Dn) (attr value : Text) : Prop :=
  ∃ id present, service.managed now contexts principal? (.modify given [⟨.add, attr, [value]⟩]) =
    .error (.attributeOrValueExists id present)

/-- Taking the value away is refused because it is not there. -/
def RefusesRemoving (service : Service) (now : Instant) (contexts : NamingContexts)
    (principal? : Option Dn) (given : Dn) (attr value : Text) : Prop :=
  ∃ name id, service.managed now contexts principal? (.modify given [⟨.remove, attr, [value]⟩]) =
    .error (.noSuchAttribute name id)

/-- Comparing finds the value. -/
def Confirms (service : Service) (now : Instant) (contexts : NamingContexts)
    (principal? : Option Dn) (given : Dn) (attr value : Text) : Prop :=
  service.managed now contexts principal? (.compare given attr value) = .ok (.compared true)

/-- Of a stored entry, adding a value is refused as present and taking it away is not refused as
absent just if the entry has it up to the case of ASCII letters, while a comparison confirms it just
if the entry has it by the rule of the type.  What a rule other than that of exact case can read and
what is present up to letter case is confirmed; and what a rule for texts confirms among plain texts
is present up to letter case. -/
theorem modifications_ignore_case_only (reached : Reachable config service contexts)
    (listed : partition ∈ contexts.partitions) (stored : entry ∈ partition.store.values)
    (normalized : service.agent.schema.normalizeDn given = .ok dn)
    (named : (entry.dn == dn) = true)
    (known : service.agent.schema.attributeType? attr = some type)
    (admitted : config.access.bars .modify principal? = false) (now : Instant) (value : Text) :
    (service.RefusesAdding now contexts principal? given attr value ↔
        entry.HoldsUpToCase type value) ∧
      (service.RefusesRemoving now contexts principal? given attr value ↔
        ¬ entry.HoldsUpToCase type value) ∧
      (service.Confirms now contexts principal? given attr value ↔
        entry.HoldsByRule type value) ∧
      (type.equality ≠ .caseExact → type.equality.equates value value = true →
        entry.HoldsUpToCase type value → entry.HoldsByRule type value) ∧
      ((type.equality = .caseIgnore ∨ type.equality = .caseExact ∨ type.equality = .boolean) →
        value.IsPlain → (∀ held ∈ Schema.valuesOf type entry, held.IsPlain) →
        entry.HoldsByRule type value → entry.HoldsUpToCase type value) := by
  obtain ⟨start, _, started, _⟩ := id reached
  have finds := reached.finds listed stored normalized named
  have values := reached.valuesOf_eq listed stored (Schema.mem_attributeTypes known)
  have primary : service.agent.schema.canonicalId attr = type.primaryName := by
    rw [Schema.canonicalId, known, Option.map_some, Option.getD_some]
  refine ⟨?adding, ?removing, ?comparing, ?readable, ?plain⟩
  case adding =>
    rw [Entry.HoldsUpToCase, values, ← primary]
    constructor
    · rintro ⟨id, present, refused⟩
      rw [managed_modify_eq_error_iff started admitted finds _ rfl rfl] at refused
      exact (Entry.applyOne_add_eq_error_iff.mp refused).1
    · intro holds
      exact ⟨_, _, (managed_modify_eq_error_iff started admitted finds _ rfl rfl).mpr
        (Entry.applyOne_add_eq_error_iff.mpr ⟨holds, rfl⟩)⟩
  case removing =>
    rw [Entry.HoldsUpToCase, values, ← primary]
    constructor
    · rintro ⟨name, id, refused⟩
      rw [managed_modify_eq_error_iff started admitted finds _ rfl rfl] at refused
      exact (Entry.applyOne_remove_eq_error_iff.mp refused).1
    · intro lacks
      exact ⟨_, _, (managed_modify_eq_error_iff started admitted finds _ rfl rfl).mpr
        (Entry.applyOne_remove_eq_error_iff.mpr ⟨lacks, rfl⟩)⟩
  case comparing =>
    rw [Confirms, managed_compare_eq started admitted]
    exact finds.compared_iff known
  case readable =>
    rintro uncased reads ⟨held, isHeld, same⟩
    exact ⟨held, isHeld, (MatchingRule.equates_of_sameIgnoringCase uncased same).trans reads⟩
  case plain =>
    rintro textual valuePlain heldPlain ⟨held, isHeld, same⟩
    exact ⟨held, isHeld, MatchingRule.sameIgnoringCase_of_equates (heldPlain held isHeld) valuePlain
      textual same⟩

/-- A description in capitals is found by all three, and another one by none. -/
theorem modifications_ignore_case_only_described :
    ∃ (config : Config) (service : Service) (contexts : NamingContexts) (given : Dn)
      (principal? : Option Dn) (type : AttributeType),
      Reachable config service contexts ∧ config.access.bars .modify principal? = false ∧
      service.agent.schema.attributeType? "DESCRIPTION" = some type ∧
      (∀ now, service.RefusesAdding now contexts principal? given "DESCRIPTION" "PLAIN TEXT" ∧
        ¬ service.RefusesRemoving now contexts principal? given "DESCRIPTION" "PLAIN TEXT" ∧
        service.Confirms now contexts principal? given "DESCRIPTION" "PLAIN TEXT") ∧
      ∀ now, ¬ service.RefusesAdding now contexts principal? given "DESCRIPTION" "other" ∧
        service.RefusesRemoving now contexts principal? given "DESCRIPTION" "other" ∧
        ¬ service.Confirms now contexts principal? given "DESCRIPTION" "other" := by
  let config := Config.single "p" "o=a"
    [("objectClass", ["organization"]), ("o", ["a"]), ("description", ["Plain text"])]
  let type : AttributeType :=
    { oid := "2.5.4.13", names := ["description"], syntaxOid := ValueSyntax.directoryString.oid }
  have run : (do
      let given ← Dn.parse "O = A"
      let built ← ofConfig config
      let dn ← built.1.agent.schema.normalizeDn given
      let partition ← Agent.covering built.2 dn
      let entry ← Agent.existing partition dn
      Except.ok (decide ((entry.dn == dn) = true ∧
        built.1.agent.schema.attributeType? "DESCRIPTION" = some type ∧
        Schema.valuesOf type entry = [Text.ofLiteral "Plain text"]))) =
          Except.ok (ε := Error) true := by
    decide +kernel
  obtain ⟨given, _, run⟩ := bind_eq_ok_iff.mp run
  obtain ⟨⟨service, start⟩, started, run⟩ := bind_eq_ok_iff.mp run
  obtain ⟨dn, normalized, run⟩ := bind_eq_ok_iff.mp run
  obtain ⟨partition, covered, run⟩ := bind_eq_ok_iff.mp run
  obtain ⟨entry, found, run⟩ := bind_eq_ok_iff.mp run
  obtain ⟨named, known, values⟩ := of_decide_eq_true (Except.ok.inj run)
  have reached := Reachable.atStart started
  have admitted : config.access.bars .modify (some given) = false := rfl
  have plain (text : Text) (ascii : text.all (fun c => decide (c.toNat < 0x80)) = true)
      (folded : text.foldBlanks = text) : text.IsPlain := ⟨by simpa using ascii, folded⟩
  have settled (now : Instant) (value : Text) := modifications_ignore_case_only reached
    (Agent.mem_of_covering covered)
    (KeyTable.mem_values_iff.mpr ⟨_, Agent.existing_eq_ok_iff.mp found⟩) normalized named known
    admitted now value
  have allPlain : ∀ held ∈ Schema.valuesOf type entry, held.IsPlain := by
    rw [values]
    exact List.forall_mem_singleton.mpr (plain _ rfl (by decide +kernel))
  have holds : entry.HoldsUpToCase type "PLAIN TEXT" :=
    ⟨_, by rw [values]; exact List.mem_cons_self, by decide +kernel⟩
  have lacks : ¬ entry.HoldsUpToCase type "other" := by
    rintro ⟨held, isHeld, same⟩
    rw [values, List.mem_singleton] at isHeld
    subst isHeld
    exact absurd same (by decide +kernel)
  refine ⟨config, service, start, given, some given, type, reached, admitted, known, fun now => ?_,
    fun now => ?_⟩
  · obtain ⟨adding, removing, comparing, readable, _⟩ := settled now "PLAIN TEXT"
    exact ⟨adding.mpr holds, fun refused => removing.mp refused holds,
      comparing.mpr (readable (by decide) (by decide +kernel) holds)⟩
  · obtain ⟨adding, removing, comparing, _, textual⟩ := settled now "other"
    exact ⟨fun refused => lacks (adding.mp refused), removing.mpr lacks, fun confirmed =>
      lacks (textual (.inl rfl) (plain _ rfl (by decide +kernel)) allPlain
        (comparing.mp confirmed))⟩

/-- A password in other letters cannot be added, though comparing tells it from the stored one; a
description with other blanks cannot be taken away, though comparing confirms it. -/
theorem modify_and_compare_disagree :
    ∃ (config : Config) (service : Service) (contexts : NamingContexts) (given : Dn)
      (principal? : Option Dn) (now : Instant),
      Reachable config service contexts ∧ config.access.bars .modify principal? = false ∧
      (∃ entry, service.agent.lookup contexts given .manageDsaIt = .ok entry) ∧
      service.RefusesAdding now contexts principal? given "userPassword" "SECRET" ∧
      service.managed now contexts principal? (.compare given "userPassword" "SECRET") =
        .ok (.compared false) ∧
      service.RefusesRemoving now contexts principal? given "description" "a b" ∧
      service.Confirms now contexts principal? given "description" "a b" := by
  let config := Config.single "p" "o=a" [("objectClass", ["organization"]), ("o", ["a"]),
    ("userPassword", ["secret"]), ("description", ["a  b"])]
  let now : Instant := ⟨2024, 1, 1, 0, 0, 0⟩
  have run : (do
      let given ← Dn.parse "o=a"
      let built ← ofConfig config
      let entry ← built.1.agent.lookup built.2 given .manageDsaIt
      let answer := built.1.managed now built.2 (some given)
      Except.ok (decide (
        answer (.modify given [⟨.add, "userPassword", ["SECRET"]⟩]) =
          .error (.attributeOrValueExists "userPassword" "SECRET") ∧
        answer (.compare given "userPassword" "SECRET") = .ok (.compared false) ∧
        answer (.modify given [⟨.remove, "description", ["a b"]⟩]) =
          .error (.noSuchAttribute "o=a" "description") ∧
        answer (.compare given "description" "a b") = .ok (.compared true)))) =
          Except.ok (ε := Error) true := by
    decide +kernel
  obtain ⟨given, _, run⟩ := bind_eq_ok_iff.mp run
  obtain ⟨⟨service, start⟩, started, run⟩ := bind_eq_ok_iff.mp run
  obtain ⟨entry, found, run⟩ := bind_eq_ok_iff.mp run
  obtain ⟨adding, comparing, removing, confirming⟩ := of_decide_eq_true (Except.ok.inj run)
  exact ⟨config, service, start, given, some given, now, Reachable.atStart started, rfl,
    ⟨entry, found⟩, ⟨_, _, adding⟩, comparing, ⟨_, _, removing⟩, confirming⟩

end Service

end Directory
