import Directory.Proofs.Agent.MovedSpellings
import Directory.Proofs.Service.MovesBack
import Directory.Proofs.Service.Renames

namespace Directory

open Text

/-! # Spellings of moved names

An entry that moves takes its naming step from the name that it was addressed by.  The names are
compared with letter case and blanks folded, but the schema looks for the value of the step by the
matching rule of its type, so that an entry may be addressed by a step that it cannot move with. -/

namespace Schema

variable {schema : Schema} {before : Entry} {step : Rdn} {type : AttributeType}

theorem validate_moved (accepted : schema.validate before = .ok ())
    (known : schema.attributeType? step.attrType = some type) (superior : Dn) :
    schema.validate { before with dn := superior.child step } =
      refuseIf (!(valuesOf type before).any fun value => type.equality.equates value step.value)
        (.schemaViolation ("RDN value " ++ step.text ++ " is not present in the entry")) := by
  have named : (Entry.mk (superior.child step) before.attributes).dn.rdn? = some step := rfl
  have naming : schema.validate ⟨superior.child step, before.attributes⟩ =
      schema.checkNaming ⟨superior.child step, before.attributes⟩ :=
    validate_eq_checkNaming accepted rfl
  rw [naming, checkNaming, named]
  simp only [known]
  rfl

theorem validate_moved_of_holds (accepted : schema.validate before = .ok ())
    (known : schema.attributeType? step.attrType = some type)
    (holds : before.HoldsByRule type step.value) (superior : Dn) :
    schema.validate { before with dn := superior.child step } = .ok () := by
  rw [validate_moved accepted known, refuseIf_eq_ok_iff, Bool.not_eq_false', List.any_eq_true]
  exact holds

theorem validate_moved_of_lacks (accepted : schema.validate before = .ok ())
    (known : schema.attributeType? step.attrType = some type)
    (lacks : ¬ before.HoldsByRule type step.value) (superior : Dn) :
    schema.validate { before with dn := superior.child step } =
      .error (.schemaViolation ("RDN value " ++ step.text ++ " is not present in the entry")) := by
  rw [validate_moved accepted known, refuseIf_eq_error_iff, Bool.not_eq_true', Bool.eq_false_iff,
    ne_eq, List.any_eq_true]
  exact ⟨lacks, rfl⟩

/-- Where letter case and blanks do not count, an accepted entry has its naming value in every
spelling of its name. -/
theorem holdsByRule_of_spelling (distinct : schema.HasDistinctTypes)
    (accepted : schema.validate before = .ok ()) {own given : Rdn}
    (ownStep : before.dn.rdn? = some own) (canonical : schema.normalizeRdn own = .ok own)
    (normalized : schema.normalizeRdn given = .ok step) (same : own.key = step.key)
    (known : schema.attributeType? given.attrType = some type)
    (uncased : type.equality = .caseIgnore) : before.HoldsByRule type given.value := by
  obtain ⟨ownType, ownKnown, held, listed, matching⟩ := holdsByRule_of_validate accepted ownStep
  obtain ⟨_, ofOwn, ownSelf⟩ := normalizeRdn_eq_ok_iff.mp canonical
  obtain rfl := Option.some.inj (ownKnown.symm.trans ofOwn)
  obtain ⟨_, ofGiven, rfl⟩ := normalizeRdn_eq_ok_iff.mp normalized
  obtain rfl := Option.some.inj (known.symm.trans ofGiven)
  rw [ownSelf] at same
  obtain ⟨sameType, sameValue⟩ := Prod.mk.inj same
  obtain rfl := (distinct.asciiLower_primaryName_iff (mem_attributeTypes ownKnown)
    (mem_attributeTypes known)).mp sameType
  have folded : foldValue own.value = foldValue given.value := by
    rw [← own.normValue_eq, ← given.normValue_eq]
    exact sameValue
  rw [uncased, MatchingRule.equates, beq_iff_eq, folded, ← beq_iff_eq] at matching
  exact ⟨held, listed, by rw [uncased, MatchingRule.equates, matching]⟩

end Schema

namespace Service

variable {config : Config} {service : Service} {start contexts : NamingContexts}
  {partition : Partition} {before : Entry} {given dn : Dn}

theorem movePlainly_of_barred (started : ofConfig config = .ok (service, start))
    {principal? : Option Dn} (barred : config.access.bars .move principal? = true) (now : Instant)
    (contexts : NamingContexts) (mode : ReferralMode) (given superior : Dn) (deleteOld : Bool) :
    ∃ reason, service.movePlainly now contexts mode principal? given superior deleteOld =
      (.error (.insufficientAccessRights reason), contexts) := by
  have passes : ∃ reason, ∀ now, Stage.passAll now service.stages
      ⟨.move given (some superior) none deleteOld, mode, principal?⟩ =
        (.error (.insufficientAccessRights reason), _) := passAll_of_barred started barred
  obtain ⟨reason, passes⟩ := passes
  exact ⟨reason, by simp only [movePlainly, execute, passes]⟩

/-- The step that a stored entry is addressed by has a known type, and where letter case and blanks
do not count, the entry has its value. -/
theorem Reachable.exists_addressed_step (reached : Reachable config service contexts)
    (listed : partition ∈ contexts.partitions) (stored : before ∈ partition.store.values)
    (normalized : service.agent.schema.normalizeDn given = .ok dn)
    (same : (before.dn == dn) = true) :
    ∃ step type above, given.rdn? = some step ∧
      service.agent.schema.attributeType? step.attrType = some type ∧
      dn = Dn.child above (step.withCanonicalType type.primaryName) ∧
      (type.equality = .caseIgnore → before.HoldsByRule type step.value) := by
  have paths := Dn.beq_iff_path.mp same
  obtain ⟨_ | ⟨old, above⟩⟩ := dn
  · have finds := reached.finds listed stored normalized same
    have owned := (NamingContexts.mem_of_resolve? finds.resolved).2
    have rootless := Dn.isRoot_eq_false_of_lies owned (reached.isSeparated.named partition listed)
    contradiction
  obtain ⟨step, _, whole, stepNormalized, _⟩ := Schema.normalizeDn_eq_cons normalized rfl
  obtain ⟨type, known, rfl⟩ := Schema.normalizeRdn_eq_ok_iff.mp stepNormalized
  refine ⟨step, type, ⟨above⟩, by rw [Dn.rdn?, whole]; rfl, known, rfl, fun uncased => ?_⟩
  cases ownSteps : before.dn.rdns with
  | nil => simp [Dn.path, ownSteps] at paths
  | cons own ownAbove =>
    rw [Dn.path, ownSteps] at paths
    have ownNormalized := reached.normalizeDn_stored partition listed before stored
    have canonical := Schema.normalizeDn_eq_self_iff.mp ownNormalized own (by simp [ownSteps])
    exact Schema.holdsByRule_of_spelling reached.hasDistinctTypes (reached.accepted listed stored)
      (by rw [Dn.rdn?, ownSteps]; rfl) canonical stepNormalized (List.cons.inj paths).1 known
      uncased

/-- An entry moves with the step that it is addressed by.  If it has the value of that step for the
matching rule, no such move is refused over conformance, and the move is done whenever it is done
for the name that the entry is stored under.  If not, no such move is done, and where it is done for
the stored name, it is refused for the missing value. -/
theorem plain_moves_conform_as_spelled (reached : Reachable config service contexts)
    (listed : partition ∈ contexts.partitions) (stored : before ∈ partition.store.values)
    (normalized : service.agent.schema.normalizeDn given = .ok dn)
    (same : (before.dn == dn) = true) :
    ∃ step type, given.rdn? = some step ∧
      service.agent.schema.attributeType? step.attrType = some type ∧
      (type.equality = .caseIgnore → before.HoldsByRule type step.value) ∧
      ∀ now mode principal? superior deleteOld,
        let move := fun name =>
          (service.movePlainly now contexts mode principal? name superior deleteOld).1
        let unnamed : Error :=
          .schemaViolation ("RDN value " ++ step.text ++ " is not present in the entry")
        (before.HoldsByRule type step.value →
          (∀ refusal, move given = .error refusal → refusal.isNonconformance = false) ∧
          (move before.dn = .ok .done → move given = .ok .done)) ∧
        (¬ before.HoldsByRule type step.value →
          (∃ refusal, move given = .error refusal ∧
            (refusal.isNonconformance = true → refusal = unnamed)) ∧
          (move before.dn = .ok .done → move given = .error unnamed)) := by
  obtain ⟨start, _, started, _⟩ := id reached
  have distinct := reached.hasDistinctIds
  have named := reached.isSeparated.named
  have accepted := reached.accepted listed stored
  have paths := Dn.beq_iff_path.mp same
  have ownNormalized := reached.normalizeDn_stored partition listed before stored
  obtain ⟨step, type, above, ofGiven, known, rfl, uncased⟩ :=
    reached.exists_addressed_step listed stored normalized same
  have finds := reached.finds listed stored normalized same
  have oldKnown : service.agent.schema.attributeType?
      (step.withCanonicalType type.primaryName).attrType = some type :=
    known
  refine ⟨step, type, ofGiven, known, uncased, ?_⟩
  intro now mode principal? superior deleteOld move unnamed
  cases clear : config.access.bars .move principal? with
  | true =>
    have barred (name : Dn) : ∃ reason, move name = .error (.insufficientAccessRights reason) := by
      obtain ⟨reason, barred⟩ := movePlainly_of_barred started clear now contexts mode name
        superior deleteOld
      exact ⟨reason, congrArg Prod.fst barred⟩
    obtain ⟨reason, refused⟩ := barred given
    obtain ⟨_, ownRefused⟩ := barred before.dn
    simp [refused, ownRefused, Error.isNonconformance]
  | false =>
    have answers (name : Dn) : move name = (service.agent.answer contexts
        (.move name (some superior) none deleteOld) mode).1 :=
      congrArg Prod.fst (movePlainly_eq started clear now contexts mode name superior deleteOld)
    rw [answers given, answers before.dn]
    refine ⟨fun holds => ?_, fun lacks => ?_⟩
    · obtain ⟨conforms, done⟩ := finds.answer_of_accepted distinct named
        (Schema.validate_moved_of_holds accepted oldKnown holds)
      exact ⟨conforms, done ownNormalized paths⟩
    · obtain ⟨refused, faulty⟩ := finds.answer_of_refused distinct named
        (Schema.validate_moved_of_lacks accepted oldKnown lacks)
      exact ⟨refused, faulty ownNormalized paths⟩

/-- The entries of a unit and of an organization that is named by its password. -/
def Event.seedsSecret (unit secret : Dn) : List Event :=
  [.seedUnit unit ["b"], .seed (.ofValues secret
    [("objectClass", ["organization"]), ("o", ["c"]), ("userPassword", ["Secret"])])]

/-- Under the right letter case of its password the organization moves, whatever that of the rest
of the name. -/
theorem plain_moves_conform_as_spelled_secret :
    ∃ (config : Config) (service : Service) (contexts : NamingContexts) (given unit : Dn)
      (step : Rdn) (type : AttributeType) (before : Entry),
      Reachable config service contexts ∧
      service.agent.lookup contexts given .manageDsaIt = .ok before ∧ before.dn ≠ given ∧
      given.rdn? = some step ∧ service.agent.schema.attributeType? step.attrType = some type ∧
      type.equality = .caseExact ∧ before.HoldsByRule type step.value ∧
      (service.movePlainly ⟨2024, 1, 1, 0, 0, 0⟩ contexts .throw (some unit) given unit false).1 =
        .ok .done ∧
      ∀ now mode principal? superior deleteOld refusal,
        (service.movePlainly now contexts mode principal? given superior deleteOld).1 =
          .error refusal → refusal.isNonconformance = false := by
  let config := Config.single "p" "o=a" [("objectClass", ["organization"]), ("o", ["a"])]
  let now : Instant := ⟨2024, 1, 1, 0, 0, 0⟩
  let type : AttributeType :=
    { oid := "2.5.4.35", names := ["userPassword"], syntaxOid := ValueSyntax.directoryString.oid,
      equality := .caseExact }
  have run : (do
      let unit ← Dn.parse "ou=b,o=a"
      let secret ← Dn.parse "userPassword=Secret,o=a"
      let given ← Dn.parse "USERPASSWORD=Secret, O=A"
      let step ← Rdn.parse "USERPASSWORD=Secret"
      let built ← ofConfig config
      let contexts := built.1.after built.2 (Event.seedsSecret unit secret)
      let dn ← built.1.agent.schema.normalizeDn given
      let partition ← Agent.covering contexts dn
      let before ← Agent.existing partition dn
      let found ← built.1.agent.lookup contexts given .manageDsaIt
      Except.ok (decide (found = before ∧ (before.dn == dn) = true ∧ before.dn ≠ given ∧
        given.rdn? = some step ∧ step.value = Text.ofLiteral "Secret" ∧
        built.1.agent.schema.attributeType? step.attrType = some type ∧
        Schema.valuesOf type before = [Text.ofLiteral "Secret"] ∧
        (built.1.movePlainly now contexts .throw (some unit) before.dn unit false).1 =
          .ok .done))) = Except.ok (ε := Error) true := by
    decide +kernel
  obtain ⟨unit, _, run⟩ := bind_eq_ok_iff.mp run
  obtain ⟨secret, _, run⟩ := bind_eq_ok_iff.mp run
  obtain ⟨given, _, run⟩ := bind_eq_ok_iff.mp run
  obtain ⟨step, _, run⟩ := bind_eq_ok_iff.mp run
  obtain ⟨⟨service, start⟩, started, run⟩ := bind_eq_ok_iff.mp run
  obtain ⟨dn, normalized, run⟩ := bind_eq_ok_iff.mp run
  obtain ⟨partition, covered, run⟩ := bind_eq_ok_iff.mp run
  obtain ⟨before, stored, run⟩ := bind_eq_ok_iff.mp run
  obtain ⟨found, looked, run⟩ := bind_eq_ok_iff.mp run
  obtain ⟨rfl, same, other, addressed, value, typed, values, ownMoves⟩ :=
    of_decide_eq_true (Except.ok.inj run)
  have reached := (Reachable.atStart started).after (Event.seedsSecret unit secret)
  obtain ⟨asked, known, ofAsked, ofKnown, _, moves⟩ :=
    plain_moves_conform_as_spelled reached (Agent.mem_of_covering covered)
      (KeyTable.mem_values_iff.mpr ⟨_, Agent.existing_eq_ok_iff.mp stored⟩) normalized same
  obtain rfl := Option.some.inj (addressed.symm.trans ofAsked)
  obtain rfl := Option.some.inj (typed.symm.trans ofKnown)
  have holds : found.HoldsByRule type step.value :=
    ⟨"Secret", by rw [values]; decide, by rw [value]; decide +kernel⟩
  refine ⟨config, service, _, given, unit, step, type, found, reached, looked, other, addressed,
    typed, rfl, holds, ?_, ?_⟩
  · exact ((moves now .throw (some unit) unit false).1 holds).2 ownMoves
  · intro later mode principal? superior deleteOld
    exact ((moves later mode principal? superior deleteOld).1 holds).1

/-- The organization with the password `Secret` is found as `secret`, and does not move. -/
theorem plain_move_refused_by_spelling :
    ∃ (config : Config) (service : Service) (contexts : NamingContexts) (given unit : Dn)
      (before : Entry),
      Reachable config service contexts ∧
      service.agent.lookup contexts given .manageDsaIt = .ok before ∧
      (service.movePlainly ⟨2024, 1, 1, 0, 0, 0⟩ contexts .throw (some unit) before.dn unit
        false).1 = .ok .done ∧
      (service.movePlainly ⟨2024, 1, 1, 0, 0, 0⟩ contexts .throw (some unit) given unit false).1 =
        .error (.schemaViolation "RDN value userPassword=secret is not present in the entry") := by
  let config := Config.single "p" "o=a" [("objectClass", ["organization"]), ("o", ["a"])]
  let now : Instant := ⟨2024, 1, 1, 0, 0, 0⟩
  have run : (do
      let unit ← Dn.parse "ou=b,o=a"
      let secret ← Dn.parse "userPassword=Secret,o=a"
      let given ← Dn.parse "userPassword=secret,o=a"
      let built ← ofConfig config
      let contexts := built.1.after built.2 (Event.seedsSecret unit secret)
      let before ← built.1.agent.lookup contexts given .manageDsaIt
      Except.ok (decide (
        (built.1.movePlainly now contexts .throw (some unit) before.dn unit false).1 = .ok .done ∧
        (built.1.movePlainly now contexts .throw (some unit) given unit false).1 = .error
          (.schemaViolation "RDN value userPassword=secret is not present in the entry")))) =
        Except.ok (ε := Error) true := by
    decide +kernel
  obtain ⟨unit, _, run⟩ := bind_eq_ok_iff.mp run
  obtain ⟨secret, _, run⟩ := bind_eq_ok_iff.mp run
  obtain ⟨given, _, run⟩ := bind_eq_ok_iff.mp run
  obtain ⟨⟨service, start⟩, started, run⟩ := bind_eq_ok_iff.mp run
  obtain ⟨before, looked, run⟩ := bind_eq_ok_iff.mp run
  obtain ⟨moves, refused⟩ := of_decide_eq_true (Except.ok.inj run)
  exact ⟨config, service, _, given, unit, before,
    (Reachable.atStart started).after (Event.seedsSecret unit secret), looked, moves, refused⟩

end Service

end Directory
