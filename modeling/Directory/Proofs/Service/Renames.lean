import Directory.Proofs.Agent.Renames
import Directory.Proofs.Partition.Relocation
import Directory.Proofs.Service.Frames
import Directory.Proofs.Service.Stored

namespace Directory

open Text

/-! # Renamed entries

A rename that is answered leaves the entry under the new name in the partition that it was in, with
the new naming value.  The old value that it takes out is looked for up to the case of ASCII
letters, so that it goes by the matching rule of its type only where the two come to the same. -/

namespace Agent

variable {agent : Agent} {contexts : NamingContexts} {partition : Partition} {given dn : Dn}
  {givenSuperior? : Option Dn} {step : Rdn} {before moved : Entry} {deleteOld : Bool}
  {mode : ReferralMode} {response : Response}

/-- The name that a rename gives, as it was asked for. -/
def newName (given : Dn) (superior? : Option Dn) (step : Rdn) : Dn :=
  (superior?.getD ⟨given.rdns.tail⟩).child step

/-- The entry under its new name, with what it was renamed from. -/
structure Renames (agent : Agent) (before : Entry) (given : Dn) (step : Rdn) (deleteOld : Bool)
    (givenOld old rdn : Rdn) (moved : Entry) : Prop where
  addressed : given.rdn? = some givenOld
  oldNormalized : agent.schema.normalizeRdn givenOld = .ok old
  stepNormalized : agent.schema.normalizeRdn step = .ok rdn
  named : moved.dn.rdn? = some rdn
  renames : renamed before moved.dn old (some rdn) deleteOld = moved
  accepted : agent.schema.validate moved = .ok ()

theorem normalizeDn_newName {old rdn : Rdn} {above : List Rdn} {superior? : Option Dn}
    (normalized : agent.schema.normalizeDn given = .ok dn) (steps : dn.rdns = old :: above)
    (superiorNormalized : givenSuperior?.mapM agent.schema.normalizeDn = .ok superior?)
    (stepNormalized : agent.schema.normalizeRdn step = .ok rdn) :
    agent.schema.normalizeDn (newName given givenSuperior? step) =
      .ok ((superior?.getD ⟨above⟩).child rdn) := by
  refine Schema.normalizeDn_child ?_ stepNormalized
  cases givenSuperior? with
  | none =>
    cases superiorNormalized
    obtain ⟨givenOld, givenAbove, whole, _, rest⟩ := Schema.normalizeDn_eq_cons normalized steps
    rw [Option.getD_none, Option.getD_none, whole]
    exact rest
  | some superior =>
    obtain ⟨canonical, same, rfl⟩ := mapM_some_eq_ok_iff.mp superiorNormalized
    exact same

theorem exists_renamed_of_answer (distinct : contexts.HasDistinctIds)
    (separated : contexts.IsSeparated)
    (filed : ∀ partition ∈ contexts.partitions, partition.store.IsFiled partition.suffix)
    (finds : agent.Finds contexts given dn partition before) (same : (before.dn == dn) = true)
    (answered : (agent.answer contexts (.move given givenSuperior? (some step) deleteOld) mode).1 =
      .ok response) :
    ∃ givenOld old rdn moved, agent.Renames before given step deleteOld givenOld old rdn moved ∧
      agent.lookup (agent.answer contexts (.move given givenSuperior? (some step) deleteOld) mode).2
        (newName given givenSuperior? step) .manageDsaIt = .ok moved := by
  obtain ⟨source, write, prepared, performed⟩ :=
    performs_of_commit distinct (fun _ => serves_planMove) answered
  generalize moves : Request.move given givenSuperior? (some step) deleteOld = request at prepared
  cases prepared with
  | add | modify | delete => contradiction
  | @move _ name _ superior? _ rdn? _ old above held moved normalized superiorNormalized
      rdnNormalized steps stored renames accepted =>
    cases moves
    obtain rfl : dn = name := Except.ok.inj (finds.normalized.symm.trans normalized)
    obtain ⟨rdn, stepNormalized, rfl⟩ := mapM_some_eq_ok_iff.mp rdnNormalized
    obtain ⟨owned, newOwned, _⟩ := Partition.admits_relocate performed.admitted
    have resolved := separated.resolve?_eq_some_iff.mpr
      ⟨performed.member, Partition.owned_of_checkOwned owned⟩
    obtain rfl : partition = source := Option.some.inj (finds.resolved.symm.trans resolved)
    obtain rfl : before = held := Option.some.inj (finds.stored.symm.trans stored)
    have target : moved.dn = (superior?.getD ⟨above⟩).child rdn := by
      rw [← renames, dn_renamed, Option.getD_some]
    have found := normalizeDn_newName normalized steps superiorNormalized stepNormalized
    rw [← target] at found
    obtain ⟨givenOld, _, whole, oldNormalized, _⟩ := Schema.normalizeDn_eq_cons normalized steps
    refine ⟨givenOld, old, rdn, moved, ⟨by rw [Dn.rdn?, whole]; rfl, oldNormalized, stepNormalized,
      by rw [target]; rfl, ?_, accepted⟩, lookup_manageDsaIt_eq_ok_iff.mpr ⟨moved.dn, _, found,
        performed.resolve?_eq distinct separated (Partition.owned_of_checkOwned newOwned),
        Partition.find?_effect_relocate (filed _ performed.member) performed.admitted stored same⟩⟩
    rw [target]
    exact renames

end Agent

def Schema.KeepsValues (schema : Schema) (before after : Entry) : Prop :=
  ∀ type ∈ schema.attributeTypes, ∀ held ∈ valuesOf type before, held ∈ valuesOf type after

/-- Every value but those that the rule of one type takes for the given one stays. -/
def Schema.KeepsOthers (schema : Schema) (dropped : AttributeType) (value : Text)
    (before after : Entry) : Prop :=
  ∀ type ∈ schema.attributeTypes, ∀ held ∈ valuesOf type before,
    (type = dropped → dropped.equality.equates held value = false) → held ∈ valuesOf type after

namespace Schema

variable {schema : Schema} {entry : Entry} {rdn : Rdn}

theorem holdsByRule_of_validate (accepted : schema.validate entry = .ok ())
    (named : entry.dn.rdn? = some rdn) :
    ∃ type, schema.attributeType? rdn.attrType = some type ∧ entry.HoldsByRule type rdn.value := by
  obtain ⟨_, _, _, _, _, _, _, _, _, naming, _⟩ := validate_eq_ok_iff_steps.mp accepted
  rw [checkNaming, named] at naming
  cases known : schema.attributeType? rdn.attrType with
  | none => simp [known] at naming
  | some type =>
    simp only [known, refuseIf_eq_ok_iff, Bool.not_eq_false', List.any_eq_true] at naming
    exact ⟨type, rfl, naming⟩

end Schema

namespace Agent

variable {agent : Agent} {before moved : Entry} {given : Dn} {step givenOld old rdn : Rdn}
  {deleteOld : Bool} {type oldType known : AttributeType} {held value : Text}

section Values

variable (distinct : agent.schema.HasDistinctTypes)
  (identified : before.IdentifiedBy agent.schema.IsCanonicalId)
  (typed : agent.schema.Types before)
  (renames : agent.Renames before given step deleteOld givenOld old rdn moved)
  (stepTyped : agent.schema.attributeType? step.attrType = some type)
  (oldTyped : agent.schema.attributeType? givenOld.attrType = some oldType)
include distinct identified typed renames stepTyped oldTyped

/-- What a renamed entry holds: what it held and the new naming value, without what is the old
naming value up to letter case if that has to go. -/
theorem Renames.mem_valuesOf_iff (member : known ∈ agent.schema.attributeTypes) :
    held ∈ Schema.valuesOf known moved ↔
      (held ∈ Schema.valuesOf known before ∨
        type = known ∧ before.containsValue rdn.normType rdn.value = false ∧ held = step.value) ∧
      (deleteOld = true → (oldType = type → foldValue givenOld.value ≠ foldValue step.value) →
        oldType = known → sameIgnoringCase held givenOld.value = false) := by
  obtain ⟨_, ofStep, rfl⟩ := Schema.normalizeRdn_eq_ok_iff.mp renames.stepNormalized
  obtain rfl := Option.some.inj (stepTyped.symm.trans ofStep)
  obtain ⟨_, ofOld, rfl⟩ := Schema.normalizeRdn_eq_ok_iff.mp renames.oldNormalized
  obtain rfl := Option.some.inj (oldTyped.symm.trans ofOld)
  have stepMember := Schema.mem_attributeTypes stepTyped
  have oldMember := Schema.mem_attributeTypes oldTyped
  have movedIdentified : moved.IdentifiedBy agent.schema.IsCanonicalId := by
    rw [← renames.renames]
    refine identifiedBy_renamed identified _ _ (fun rdn isNew => ?_) _
    cases isNew
    exact Schema.isCanonicalId_of_normalizeRdn renames.stepNormalized
  have differ : (givenOld.withCanonicalType oldType.primaryName ==
      step.withCanonicalType type.primaryName) = false ↔
        (oldType = type → foldValue givenOld.value ≠ foldValue step.value) := by
    rw [← Bool.not_eq_true, Rdn.beq_iff_key, Rdn.key, Rdn.key, Prod.mk.injEq, not_and,
      Rdn.normValue_eq, Rdn.normValue_eq]
    exact imp_congr_left (distinct.asciiLower_primaryName_iff oldMember stepMember)
  rw [Schema.valuesOf_eq distinct typed identified member, Schema.valuesOf_eq distinct
    (Schema.types_of_validate renames.accepted) movedIdentified member, ← renames.renames,
    mem_values_renamed_iff, differ]
  simp only [Rdn.withCanonicalType, asciiLower_asciiLower,
    distinct.asciiLower_primaryName_iff stepMember member,
    distinct.asciiLower_primaryName_iff oldMember member]

theorem Renames.keepsValues (kept : deleteOld = false) :
    agent.schema.KeepsValues before moved := by
  intro known member held listed
  rw [renames.mem_valuesOf_iff distinct identified typed stepTyped oldTyped member, kept]
  exact ⟨.inl listed, nofun⟩

section Deletes

variable (deletes : deleteOld = true)
  (differ : oldType = type → foldValue givenOld.value ≠ foldValue step.value)
include deletes differ

/-- The old naming value is gone for the rule of its type exactly if letter case was all that
stood between it and what the rule takes for it. -/
theorem Renames.not_holdsByRule_iff
    (apart : ¬ (oldType = type ∧ oldType.equality.equates step.value value = true)) :
    ¬ moved.HoldsByRule oldType value ↔ ∀ held ∈ Schema.valuesOf oldType before,
      oldType.equality.equates held value = true →
        sameIgnoringCase held givenOld.value = true := by
  have oldMember := Schema.mem_attributeTypes oldTyped
  have listed_iff {held : Text} : held ∈ Schema.valuesOf oldType moved ↔ _ :=
    renames.mem_valuesOf_iff distinct identified typed stepTyped oldTyped oldMember
  constructor
  · intro gone held listed matching
    by_contra other
    exact gone ⟨held, listed_iff.mpr ⟨.inl listed, fun _ _ _ => by simpa using other⟩,
      matching⟩
  · rintro onlyCase ⟨held, listed, matching⟩
    obtain ⟨origin, other⟩ := listed_iff.mp listed
    have apartFromOld := other deletes differ rfl
    rcases origin with stood | ⟨same, _, rfl⟩
    · rw [onlyCase held stood matching] at apartFromOld
      contradiction
    · exact apart ⟨same.symm, matching⟩

theorem Renames.keepsOthers_iff : agent.schema.KeepsOthers oldType value before moved ↔
    ∀ held ∈ Schema.valuesOf oldType before, sameIgnoringCase held givenOld.value = true →
      oldType.equality.equates held value = true := by
  have oldMember := Schema.mem_attributeTypes oldTyped
  constructor
  · intro keeps held listed same
    by_contra other
    have stays := keeps oldType oldMember held listed fun _ => by simpa using other
    rw [renames.mem_valuesOf_iff distinct identified typed stepTyped oldTyped oldMember] at stays
    rw [stays.2 deletes differ rfl] at same
    contradiction
  · intro onlyMatching known member held listed other
    rw [renames.mem_valuesOf_iff distinct identified typed stepTyped oldTyped member]
    refine ⟨.inl listed, fun _ _ isOld => ?_⟩
    subst isOld
    rw [← Bool.not_eq_true]
    intro same
    rw [onlyMatching held listed same] at other
    exact absurd (other rfl) Bool.noConfusion

end Deletes

end Values

end Agent

namespace Service

variable {config : Config} {service : Service} {contexts : NamingContexts} {partition : Partition}
  {before : Entry} {given dn : Dn} {givenSuperior? principal? : Option Dn} {step : Rdn}
  {deleteOld : Bool} {mode : ReferralMode} {response : Response} {now : Instant}

theorem Reachable.exists_renamed (reached : Reachable config service contexts)
    (finds : service.agent.Finds contexts given dn partition before)
    (named : (before.dn == dn) = true)
    (answered : (service.execute now contexts
      ⟨.move given givenSuperior? (some step) deleteOld, mode, principal?⟩).1.1 = .ok response) :
    ∃ givenOld old rdn moved,
      service.agent.Renames before given step deleteOld givenOld old rdn moved ∧
      service.agent.lookup (service.execute now contexts
          ⟨.move given givenSuperior? (some step) deleteOld, mode, principal?⟩).1.2
        (Agent.newName given givenSuperior? step) .manageDsaIt = .ok moved := by
  rcases service.execute_eq_cases now
      ⟨.move given givenSuperior? (some step) deleteOld, mode, principal?⟩ with
    ⟨refusal, refused⟩ | ⟨passed, becomes, answers⟩
  · simp [refused] at answered
  · rw [answers] at answered ⊢
    have same := becomes.request
    generalize passed.request = request at same answered ⊢
    cases same
    exact Agent.exists_renamed_of_answer reached.hasDistinctIds reached.isSeparated
      (fun partition listed => (reached.isFiled partition listed).2) finds named answered

/-- A rename of a stored entry that is done gives it a value that is that of the new naming step by
the rule of its type, and keeps all values unless the old one has to go.  If it has to, and the two
steps and their values differ, then no value is left that is the old one by the rule exactly if all
that were are the addressed one up to the case of ASCII letters; and all other values are left
exactly if no other one is the addressed one up to letter case. -/
theorem renames_drop_by_letter_case (reached : Reachable config service contexts)
    (listed : partition ∈ contexts.partitions) (stored : before ∈ partition.store.values)
    (normalized : service.agent.schema.normalizeDn given = .ok dn)
    (named : (before.dn == dn) = true)
    (answered : (service.execute now contexts
      ⟨.move given givenSuperior? (some step) deleteOld, mode, principal?⟩).1.1 = .ok response) :
    ∃ type oldType asked moved,
      service.agent.schema.attributeType? step.attrType = some type ∧
      given.rdn? = some asked ∧
      service.agent.schema.attributeType? asked.attrType = some oldType ∧
      service.agent.lookup (service.execute now contexts
          ⟨.move given givenSuperior? (some step) deleteOld, mode, principal?⟩).1.2
        (Agent.newName given givenSuperior? step) .manageDsaIt = .ok moved ∧
      moved.HoldsByRule type step.value ∧
      (deleteOld = false → service.agent.schema.KeepsValues before moved) ∧
      (deleteOld = true → (oldType = type → foldValue asked.value ≠ foldValue step.value) →
        ∀ old, before.dn.rdn? = some old →
          ¬ (oldType = type ∧ oldType.equality.equates step.value old.value = true) →
          (¬ moved.HoldsByRule oldType old.value ↔
            ∀ held ∈ Schema.valuesOf oldType before,
              oldType.equality.equates held old.value = true →
                sameIgnoringCase held asked.value = true) ∧
          (service.agent.schema.KeepsOthers oldType old.value before moved ↔
            ∀ held ∈ Schema.valuesOf oldType before, sameIgnoringCase held asked.value = true →
              oldType.equality.equates held old.value = true)) := by
  obtain ⟨asked, canonicalOld, rdn, moved, renames, found⟩ :=
    reached.exists_renamed (reached.finds listed stored normalized named) named answered
  have distinct := reached.hasDistinctTypes
  have identified := reached.identifiedBy partition listed before stored
  have typed := reached.types partition listed before stored
  obtain ⟨oldType, oldTyped, _⟩ := Schema.normalizeRdn_eq_ok_iff.mp renames.oldNormalized
  obtain ⟨type, stepTyped, sameStep⟩ := Schema.normalizeRdn_eq_ok_iff.mp renames.stepNormalized
  obtain ⟨_, ofStep, naming⟩ := Schema.holdsByRule_of_validate renames.accepted renames.named
  subst sameStep
  obtain rfl := Option.some.inj (stepTyped.symm.trans ofStep)
  refine ⟨type, oldType, asked, moved, stepTyped, renames.addressed, oldTyped, found, naming,
    renames.keepsValues distinct identified typed stepTyped oldTyped,
    fun deletes differ old _ apart => ⟨?_, ?_⟩⟩
  · exact renames.not_holdsByRule_iff distinct identified typed stepTyped oldTyped deletes differ
      apart
  · exact renames.keepsOthers_iff distinct identified typed stepTyped oldTyped deletes differ

def Event.seedUnit (dn : Dn) (units : List Text) : Event :=
  .seed (.ofValues dn [("objectClass", ["organizationalUnit"]), ("ou", units)])

/-- The unit `b`, which is also called `bee`, becomes `c`. -/
theorem renames_drop_by_letter_case_unit :
    ∃ (config : Config) (service : Service) (contexts : NamingContexts) (given : Dn)
      (step : Rdn) (now : Instant) (type : AttributeType) (before moved : Entry),
      Reachable config service contexts ∧
      service.agent.lookup contexts given .manageDsaIt = .ok before ∧
      Schema.valuesOf type before = [Text.ofLiteral "b", Text.ofLiteral "bee"] ∧
      (service.execute now contexts
        ⟨.move given none (some step) true, .throw, some given⟩).1.1 = .ok .done ∧
      service.agent.lookup (service.execute now contexts
          ⟨.move given none (some step) true, .throw, some given⟩).1.2
        (Agent.newName given none step) .manageDsaIt = .ok moved ∧
      moved.HoldsByRule type "C" ∧ ¬ moved.HoldsByRule type "b" ∧
      service.agent.schema.KeepsOthers type "b" before moved := by
  let config := Config.single "p" "o=a" [("objectClass", ["organization"]), ("o", ["a"])]
  let now : Instant := ⟨2024, 1, 1, 0, 0, 0⟩
  let type : AttributeType :=
    { oid := "2.5.4.11", names := ["ou", "organizationalUnitName"],
      syntaxOid := ValueSyntax.directoryString.oid }
  have run : (do
      let given ← Dn.parse "ou=b,o=a"
      let old ← Rdn.parse "ou=b"
      let step ← Rdn.parse "OU=C"
      let built ← ofConfig config
      let contexts := built.1.after built.2 [.seedUnit given ["b", "bee"]]
      let dn ← built.1.agent.schema.normalizeDn given
      let partition ← Agent.covering contexts dn
      let before ← Agent.existing partition dn
      let found ← built.1.agent.lookup contexts given .manageDsaIt
      Except.ok (decide (
        (built.1.execute now contexts
          ⟨.move given none (some step) true, .throw, some given⟩).1.1 = .ok .done ∧
        found = before ∧ (before.dn == dn) = true ∧ given.rdn? = some old ∧
        before.dn.rdn? = some old ∧ old.value = Text.ofLiteral "b" ∧
        step.value = Text.ofLiteral "C" ∧
        built.1.agent.schema.attributeType? old.attrType = some type ∧
        built.1.agent.schema.attributeType? step.attrType = some type ∧
        Schema.valuesOf type before = [Text.ofLiteral "b", Text.ofLiteral "bee"]))) =
        Except.ok (ε := Error) true := by
    decide +kernel
  obtain ⟨given, _, run⟩ := bind_eq_ok_iff.mp run
  obtain ⟨old, _, run⟩ := bind_eq_ok_iff.mp run
  obtain ⟨step, _, run⟩ := bind_eq_ok_iff.mp run
  obtain ⟨⟨service, start⟩, started, run⟩ := bind_eq_ok_iff.mp run
  obtain ⟨dn, normalized, run⟩ := bind_eq_ok_iff.mp run
  obtain ⟨partition, covered, run⟩ := bind_eq_ok_iff.mp run
  obtain ⟨before, stored, run⟩ := bind_eq_ok_iff.mp run
  obtain ⟨found, looked, run⟩ := bind_eq_ok_iff.mp run
  obtain ⟨answered, rfl, named, addressed, oldNamed, oldValue, stepValue, oldTyped, stepTyped,
    values⟩ := of_decide_eq_true (Except.ok.inj run)
  have reached := (Reachable.atStart started).after [.seedUnit given ["b", "bee"]]
  obtain ⟨newType, oldType, asked, moved, ofStep, ofAsked, ofOld, after, naming, _, drops⟩ :=
    renames_drop_by_letter_case reached (Agent.mem_of_covering covered)
      (KeyTable.mem_values_iff.mpr ⟨_, Agent.existing_eq_ok_iff.mp stored⟩) normalized named
      answered
  obtain rfl := Option.some.inj (addressed.symm.trans ofAsked)
  obtain rfl := Option.some.inj (oldTyped.symm.trans ofOld)
  obtain rfl := Option.some.inj (stepTyped.symm.trans ofStep)
  obtain ⟨gone, others⟩ := drops rfl (fun _ => by rw [oldValue, stepValue]; decide +kernel) old
    oldNamed (by rw [oldValue, stepValue]; decide +kernel)
  rw [values, oldValue] at gone others
  rw [stepValue] at naming
  exact ⟨config, service, _, given, step, now, type, found, moved, reached, looked, values,
    answered, after, naming, gone.mpr (by decide +kernel), others.mpr (by decide +kernel)⟩

/-- The unit `a b`, whose value has two spaces, becomes `c` and is `a b` for the rule still. -/
theorem rename_leaves_old_value :
    ∃ (config : Config) (service : Service) (contexts : NamingContexts) (given : Dn)
      (old step : Rdn) (now : Instant) (type : AttributeType) (before moved : Entry),
      Reachable config service contexts ∧
      service.agent.lookup contexts given .manageDsaIt = .ok before ∧
      before.dn.rdn? = some old ∧ old.value = Text.ofLiteral "a b" ∧
      service.agent.schema.attributeType? old.attrType = some type ∧
      service.agent.schema.attributeType? step.attrType = some type ∧
      (old == step) = false ∧ type.equality.equates step.value old.value = false ∧
      (service.execute now contexts
        ⟨.move given none (some step) true, .throw, some given⟩).1.1 = .ok .done ∧
      service.agent.lookup (service.execute now contexts
          ⟨.move given none (some step) true, .throw, some given⟩).1.2
        (Agent.newName given none step) .manageDsaIt = .ok moved ∧
      moved.HoldsByRule type old.value := by
  let config := Config.single "p" "o=a" [("objectClass", ["organization"]), ("o", ["a"])]
  let now : Instant := ⟨2024, 1, 1, 0, 0, 0⟩
  let type : AttributeType :=
    { oid := "2.5.4.11", names := ["ou", "organizationalUnitName"],
      syntaxOid := ValueSyntax.directoryString.oid }
  have run : (do
      let given ← Dn.parse "ou=a b,o=a"
      let old ← Rdn.parse "ou=a b"
      let step ← Rdn.parse "ou=c"
      let built ← ofConfig config
      let contexts := built.1.after built.2 [.seedUnit given ["a  b"]]
      let before ← built.1.agent.lookup contexts given .manageDsaIt
      let executed := (built.1.execute now contexts
        ⟨.move given none (some step) true, .throw, some given⟩).1
      let moved ← built.1.agent.lookup executed.2 (Agent.newName given none step) .manageDsaIt
      Except.ok (decide (before.dn.rdn? = some old ∧ old.value = Text.ofLiteral "a b" ∧
        built.1.agent.schema.attributeType? old.attrType = some type ∧
        built.1.agent.schema.attributeType? step.attrType = some type ∧
        (old == step) = false ∧ type.equality.equates step.value old.value = false ∧
        executed.1 = .ok .done ∧ ∃ held ∈ Schema.valuesOf type moved,
          type.equality.equates held old.value = true))) = Except.ok (ε := Error) true := by
    decide +kernel
  obtain ⟨given, _, run⟩ := bind_eq_ok_iff.mp run
  obtain ⟨old, _, run⟩ := bind_eq_ok_iff.mp run
  obtain ⟨step, _, run⟩ := bind_eq_ok_iff.mp run
  obtain ⟨⟨service, start⟩, started, run⟩ := bind_eq_ok_iff.mp run
  obtain ⟨before, looked, run⟩ := bind_eq_ok_iff.mp run
  obtain ⟨moved, found, run⟩ := bind_eq_ok_iff.mp run
  obtain ⟨oldNamed, oldValue, oldTyped, stepTyped, differ, apart, answered, holds⟩ :=
    of_decide_eq_true (Except.ok.inj run)
  exact ⟨config, service, _, given, old, step, now, type, before, moved,
    (Reachable.atStart started).after _, looked, oldNamed, oldValue, oldTyped, stepTyped, differ,
    apart, answered, found, holds⟩

end Service

end Directory
