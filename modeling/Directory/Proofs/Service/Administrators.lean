import Directory.Proofs.Name.RoundTrip
import Directory.Proofs.Schema.TypeNames
import Directory.Proofs.Service.Access

namespace Directory

open Text

/-! # Administrators

The stage that checks callers has no schema: it compares names as they were read, so an
administrator is recognised by the attribute types of the settings only.  Everywhere else a name
goes by the primary names of its types. -/

namespace Rdn

variable {rdn other canonical otherCanonical : Rdn} {schema : Schema}

/-- A step as it was read equals another exactly if the two have one canonical form and their types
are spelled alike. -/
theorem key_eq_iff_of_normalizeRdn (obtained : rdn.Obtained) (otherObtained : other.Obtained)
    (normalized : schema.normalizeRdn other = .ok otherCanonical) :
    rdn.key = other.key ↔ ∃ canonical, schema.normalizeRdn rdn = .ok canonical ∧
      canonical.key = otherCanonical.key ∧ asciiLower rdn.attrType = asciiLower other.attrType := by
  unfold Schema.normalizeRdn at normalized ⊢
  cases found : schema.attributeType? other.attrType with
  | none => simp [found] at normalized
  | some type =>
    simp only [found, Except.ok.injEq] at normalized
    subst normalized
    have sameFound (sameType : asciiLower rdn.attrType = asciiLower other.attrType) :
        schema.attributeType? rdn.attrType = some type := by
      rw [← found, Schema.attributeType?, Schema.attributeType?,
        Schema.lookupKey_eq_of_asciiLower sameType]
    constructor
    · intro same
      obtain ⟨sameType, sameValue⟩ := Prod.mk.inj same
      rw [obtained.normType_eq, otherObtained.normType_eq] at sameType
      simp only [sameFound sameType]
      exact ⟨_, rfl, Prod.ext rfl sameValue, sameType⟩
    · rintro ⟨canonical, normalized, same, sameType⟩
      simp only [sameFound sameType, Except.ok.injEq] at normalized
      subst normalized
      rw [key, key, obtained.normType_eq, otherObtained.normType_eq, sameType]
      exact Prod.ext rfl (Prod.mk.inj same).2

end Rdn

namespace Dn

variable {dn other canonical otherCanonical : Dn} {schema : Schema}

/-- The types of the steps are the same words, up to the case of ASCII letters. -/
def SpellsTypesAs (left right : Dn) : Prop :=
  left.rdns.map (fun rdn => asciiLower rdn.attrType) =
    right.rdns.map fun rdn => asciiLower rdn.attrType

theorem keys_eq_iff_of_normalizeRdns {rdns others canonicals : List Rdn}
    (obtained : ∀ rdn ∈ rdns, rdn.Obtained) (otherObtained : ∀ rdn ∈ others, rdn.Obtained)
    (normalized : others.mapM schema.normalizeRdn = .ok canonicals) :
    rdns.map Rdn.key = others.map Rdn.key ↔
      ∃ results, rdns.mapM schema.normalizeRdn = .ok results ∧
        results.map Rdn.key = canonicals.map Rdn.key ∧
        rdns.map (fun rdn => asciiLower rdn.attrType) =
          others.map fun rdn => asciiLower rdn.attrType := by
  induction others generalizing rdns canonicals with
  | nil =>
    cases normalized
    cases rdns with
    | nil => simp [pure, Except.pure]
    | cons first rest => simp
  | cons other others ih =>
    obtain ⟨canonical, rest, firstNormalized, restNormalized, rfl⟩ :=
      mapM_cons_eq_ok_iff.mp normalized
    cases rdns with
    | nil => simp
    | cons rdn rdns =>
      have first := Rdn.key_eq_iff_of_normalizeRdn (obtained rdn List.mem_cons_self)
        (otherObtained other List.mem_cons_self) firstNormalized
      have later := ih (fun rdn listed => obtained rdn (List.mem_cons_of_mem _ listed))
        (fun rdn listed => otherObtained rdn (List.mem_cons_of_mem _ listed)) restNormalized
      simp only [List.map_cons, List.cons.injEq, first, later, mapM_cons_eq_ok_iff]
      constructor
      · rintro ⟨⟨result, computed, same, sameType⟩, results, allComputed, allSame, sameTypes⟩
        exact ⟨result :: results, ⟨result, results, computed, allComputed, rfl⟩,
          by rw [List.map_cons, same, allSame], sameType, sameTypes⟩
      · rintro ⟨_, ⟨result, results, computed, allComputed, rfl⟩, same, sameType, sameTypes⟩
        obtain ⟨firstSame, allSame⟩ := List.cons.inj same
        exact ⟨⟨result, computed, firstSame, sameType⟩, results, allComputed, allSame, sameTypes⟩

/-- Names with one canonical form are equal as they were read exactly if their types are spelled
alike. -/
theorem path_eq_iff_of_normalizeDn (obtained : ∀ rdn ∈ dn.rdns, rdn.Obtained)
    (otherObtained : ∀ rdn ∈ other.rdns, rdn.Obtained)
    (normalized : schema.normalizeDn other = .ok otherCanonical) :
    dn.path = other.path ↔ ∃ canonical, schema.normalizeDn dn = .ok canonical ∧
      canonical.path = otherCanonical.path ∧ dn.SpellsTypesAs other := by
  obtain ⟨canonicals, computed, same⟩ := bind_eq_ok_iff.mp normalized
  cases same
  rw [path, path, keys_eq_iff_of_normalizeRdns obtained otherObtained computed]
  constructor
  · rintro ⟨results, allComputed, allSame, sameTypes⟩
    exact ⟨⟨results⟩, bind_eq_ok_iff.mpr ⟨results, allComputed, rfl⟩, allSame, sameTypes⟩
  · rintro ⟨canonical, normalized, allSame, sameTypes⟩
    obtain ⟨results, allComputed, same⟩ := bind_eq_ok_iff.mp normalized
    cases same
    exact ⟨results, allComputed, allSame, sameTypes⟩

end Dn

/-- An administrator has the principal's canonical name and is written with the same types. -/
def AccessConfig.Recognizes (access : AccessConfig) (schema : Schema) (principal : Dn) : Prop :=
  ∃ text ∈ access.administrators, ∃ administrator canonical principalCanonical,
    Dn.parse text = .ok administrator ∧ schema.normalizeDn administrator = .ok canonical ∧
    schema.normalizeDn principal = .ok principalCanonical ∧
    (canonical == principalCanonical) = true ∧ administrator.SpellsTypesAs principal

theorem AccessConfig.lists_iff_recognizes {access : AccessConfig} {schema : Schema} {text : Text}
    {principal canonical : Dn} (read : Dn.parse text = .ok principal)
    (normalized : schema.normalizeDn principal = .ok canonical) :
    access.lists principal = true ↔ access.Recognizes schema principal := by
  rw [lists_iff]
  have samePath {given : Text} {administrator : Dn} (parsed : Dn.parse given = .ok administrator) :=
    Dn.path_eq_iff_of_normalizeDn (Dn.obtained_of_parse parsed) (Dn.obtained_of_parse read)
      normalized
  constructor
  · rintro ⟨given, listed, administrator, parsed, same⟩
    obtain ⟨result, computed, sameResult, sameTypes⟩ :=
      (samePath parsed).mp (Dn.beq_iff_path.mp same)
    exact ⟨given, listed, administrator, result, canonical, parsed, computed, normalized,
      Dn.beq_iff_path.mpr sameResult, sameTypes⟩
  · rintro ⟨given, listed, administrator, result, again, parsed, computed, normalizedAgain, same,
      sameTypes⟩
    cases normalizedAgain.symm.trans normalized
    exact ⟨given, listed, administrator, parsed, Dn.beq_iff_path.mpr
      ((samePath parsed).mpr ⟨result, computed, Dn.beq_iff_path.mp same, sameTypes⟩)⟩

namespace Service

variable {config : Config} {service : Service} {start : NamingContexts}

theorem passAll_eq_ok_iff_recognizes (started : ofConfig config = .ok (service, start))
    (restricted : config.access.administrators.isEmpty = false) {text : Text}
    {principal canonical : Dn} (read : Dn.parse text = .ok principal)
    (normalized : service.agent.schema.normalizeDn principal = .ok canonical) (now : Instant)
    (mode : ReferralMode) {request : Request} (writes : request.kind.isWrite = true) :
    (Stage.passAll now service.stages ⟨request, mode, some principal⟩).1 = .ok () ↔
      config.access.Recognizes service.agent.schema principal := by
  rw [passAll_eq_ok_iff started, ← AccessConfig.lists_iff_recognizes read normalized]
  simp [AccessConfig.bars, writes, restricted]

/-- Where there are administrators, a write passes the stages exactly if one of them has the
caller's canonical name and is written with the same types.  So callers with one canonical name are
treated alike if their types are spelled alike, whatever the case, the blanks and the escapes. -/
theorem writes_admitted_by_written_types (started : ofConfig config = .ok (service, start))
    (restricted : config.access.administrators.isEmpty = false) {left right : Text}
    {given other canonical otherCanonical : Dn} (read : Dn.parse left = .ok given)
    (otherRead : Dn.parse right = .ok other)
    (normalized : service.agent.schema.normalizeDn given = .ok canonical)
    (otherNormalized : service.agent.schema.normalizeDn other = .ok otherCanonical)
    (same : (canonical == otherCanonical) = true) :
    (∀ now mode request, request.kind.isWrite = true →
        ((Stage.passAll now service.stages ⟨request, mode, some given⟩).1 = .ok () ↔
          config.access.Recognizes service.agent.schema given) ∧
        ((Stage.passAll now service.stages ⟨request, mode, some other⟩).1 = .ok () ↔
          config.access.Recognizes service.agent.schema other)) ∧
      (given.SpellsTypesAs other →
        (config.access.Recognizes service.agent.schema given ↔
          config.access.Recognizes service.agent.schema other)) := by
  refine ⟨fun now mode request writes =>
    ⟨passAll_eq_ok_iff_recognizes started restricted read normalized now mode writes,
      passAll_eq_ok_iff_recognizes started restricted otherRead otherNormalized now mode writes⟩,
    fun sameTypes => ?_⟩
  have samePath : given.path = other.path :=
    (Dn.path_eq_iff_of_normalizeDn (Dn.obtained_of_parse read) (Dn.obtained_of_parse otherRead)
      otherNormalized).mpr ⟨canonical, normalized, Dn.beq_iff_path.mp same, sameTypes⟩
  rw [← AccessConfig.lists_iff_recognizes read normalized,
    ← AccessConfig.lists_iff_recognizes otherRead otherNormalized, AccessConfig.lists_iff,
    AccessConfig.lists_iff]
  simp only [Dn.beq_iff_path, samePath]

/-- The administrator `cn=admin,o=a` may delete under another spelling with the same types. -/
theorem writes_admitted_by_written_types_escaped :
    ∃ (config : Config) (service : Service) (start : NamingContexts) (principal dn : Dn),
      ofConfig config = .ok (service, start) ∧
      config.access.administrators = ["cn=admin,o=a"] ∧
      Dn.parse "CN = \\61dmin , O=A" = .ok principal ∧ Dn.parse "o=a" = .ok dn ∧
      (Stage.passAll ⟨2024, 1, 1, 0, 0, 0⟩ service.stages ⟨.delete dn, .throw, some principal⟩).1 =
        .ok () := by
  have run : (do
      let dn ← Dn.parse "o=a"
      let given ← Dn.parse "cn=admin,o=a"
      let other ← Dn.parse "CN = \\61dmin , O=A"
      let built ← ofConfig (.administered true)
      let canonical ← built.1.agent.schema.normalizeDn given
      let otherCanonical ← built.1.agent.schema.normalizeDn other
      Except.ok (decide ((canonical == otherCanonical) = true ∧
        (given.rdns.map fun rdn => asciiLower rdn.attrType) =
          other.rdns.map fun rdn => asciiLower rdn.attrType))) = Except.ok (ε := Error) true := by
    decide +kernel
  obtain ⟨dn, target, run⟩ := bind_eq_ok_iff.mp run
  obtain ⟨given, read, run⟩ := bind_eq_ok_iff.mp run
  obtain ⟨other, otherRead, run⟩ := bind_eq_ok_iff.mp run
  obtain ⟨⟨service, start⟩, started, run⟩ := bind_eq_ok_iff.mp run
  obtain ⟨canonical, normalized, run⟩ := bind_eq_ok_iff.mp run
  obtain ⟨otherCanonical, otherNormalized, run⟩ := bind_eq_ok_iff.mp run
  obtain ⟨same, sameTypes⟩ := of_decide_eq_true (Except.ok.inj run)
  obtain ⟨passes, alike⟩ := writes_admitted_by_written_types started rfl read otherRead normalized
    otherNormalized same
  have recognized : (Config.administered true).access.Recognizes service.agent.schema given :=
    ⟨_, List.mem_cons_self, given, canonical, canonical, read, normalized, normalized,
      Dn.beq_iff_path.mpr rfl, rfl⟩
  exact ⟨.administered true, service, start, other, dn, started, rfl, otherRead, target,
    (passes _ _ _ rfl).2.mpr ((alike sameTypes).mp recognized)⟩

/-- Under another name of the type `cn` the administrator is refused. -/
theorem administrator_refused_under_alias :
    ∃ (config : Config) (service : Service) (start : NamingContexts)
      (given other canonical otherCanonical : Dn),
      ofConfig config = .ok (service, start) ∧
      config.access.administrators = ["cn=admin,o=a"] ∧
      Dn.parse "cn=admin,o=a" = .ok given ∧ Dn.parse "commonName=admin,o=a" = .ok other ∧
      service.agent.schema.normalizeDn given = .ok canonical ∧
      service.agent.schema.normalizeDn other = .ok otherCanonical ∧
      (canonical == otherCanonical) = true ∧
      (service.run ⟨.throw, some given⟩ ⟨2024, 1, 1, 0, 0, 0⟩ start
        (.modify "o=a" [⟨.replace, "description", ["x"]⟩])).1 = .ok .done ∧
      (service.run ⟨.throw, some other⟩ ⟨2024, 1, 1, 0, 0, 0⟩ start
        (.modify "o=a" [⟨.replace, "description", ["x"]⟩])).1 = .error (.insufficientAccessRights
          "modify of o=a: principal is not an administrator") := by
  have run : (do
      let given ← Dn.parse "cn=admin,o=a"
      let other ← Dn.parse "commonName=admin,o=a"
      let built ← ofConfig (.administered true)
      let canonical ← built.1.agent.schema.normalizeDn given
      let otherCanonical ← built.1.agent.schema.normalizeDn other
      Except.ok (decide ((canonical == otherCanonical) = true ∧
        (built.1.run ⟨.throw, some given⟩ ⟨2024, 1, 1, 0, 0, 0⟩ built.2
          (.modify "o=a" [⟨.replace, "description", ["x"]⟩])).1 = .ok .done ∧
        (built.1.run ⟨.throw, some other⟩ ⟨2024, 1, 1, 0, 0, 0⟩ built.2
          (.modify "o=a" [⟨.replace, "description", ["x"]⟩])).1 = .error (.insufficientAccessRights
            "modify of o=a: principal is not an administrator")))) =
          Except.ok (ε := Error) true := by
    decide +kernel
  obtain ⟨given, read, run⟩ := bind_eq_ok_iff.mp run
  obtain ⟨other, otherRead, run⟩ := bind_eq_ok_iff.mp run
  obtain ⟨⟨service, start⟩, started, run⟩ := bind_eq_ok_iff.mp run
  obtain ⟨canonical, normalized, run⟩ := bind_eq_ok_iff.mp run
  obtain ⟨otherCanonical, otherNormalized, run⟩ := bind_eq_ok_iff.mp run
  obtain ⟨same, admitted, refused⟩ := of_decide_eq_true (Except.ok.inj run)
  exact ⟨.administered true, service, start, given, other, canonical, otherCanonical, started, rfl,
    read, otherRead, normalized, otherNormalized, same, admitted, refused⟩

end Service

end Directory
