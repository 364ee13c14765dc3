import Directory.Schema.Canonical
import Mathlib.Data.List.Forall2

namespace Directory

/-! # Canonical names

A schema makes a name canonical step by step, and a step stays as it was written.  So a canonical
name is its own canonical form. -/

theorem mapM_eq_ok_iff_forall₂ {ε α β : Type} {compute : α → Except ε β} {members : List α}
    {results : List β} : members.mapM compute = .ok results ↔
      List.Forall₂ (fun member result => compute member = .ok result) members results := by
  induction members generalizing results with
  | nil =>
    rw [List.forall₂_nil_left_iff]
    exact ⟨fun computed => (Except.ok.inj computed).symm, fun same => same ▸ rfl⟩
  | cons first rest ih =>
    rw [mapM_cons_eq_ok_iff, List.forall₂_cons_left_iff]
    constructor
    · rintro ⟨result, others, computes, later, rfl⟩
      exact ⟨result, others, computes, ih.mp later, rfl⟩
    · rintro ⟨result, others, computes, later, rfl⟩
      exact ⟨result, others, computes, ih.mpr later, rfl⟩

namespace Schema

variable {schema : Schema} {given rdn : Rdn} {givenDn dn : Dn}

theorem normalizeRdn_eq_ok_iff : schema.normalizeRdn given = .ok rdn ↔
    ∃ type, schema.attributeType? given.attrType = some type ∧
      rdn = given.withCanonicalType type.primaryName := by
  unfold normalizeRdn
  cases schema.attributeType? given.attrType <;> simp [eq_comm]

theorem normalizeRdn_self (normalized : schema.normalizeRdn given = .ok rdn) :
    schema.normalizeRdn rdn = .ok rdn := by
  obtain ⟨type, known, rfl⟩ := normalizeRdn_eq_ok_iff.mp normalized
  exact normalizeRdn_eq_ok_iff.mpr ⟨type, known, rfl⟩

theorem normalizeDn_eq_ok_iff : schema.normalizeDn givenDn = .ok dn ↔
    List.Forall₂ (fun given rdn => schema.normalizeRdn given = .ok rdn) givenDn.rdns dn.rdns := by
  rw [normalizeDn, bind_eq_ok_iff, ← mapM_eq_ok_iff_forall₂]
  constructor
  · rintro ⟨rdns, computed, same⟩
    cases same
    exact computed
  · intro computed
    exact ⟨dn.rdns, computed, rfl⟩

theorem normalizeDn_eq_cons {above : List Rdn} (normalized : schema.normalizeDn givenDn = .ok dn)
    (steps : dn.rdns = rdn :: above) :
    ∃ given givenAbove, givenDn.rdns = given :: givenAbove ∧ schema.normalizeRdn given = .ok rdn ∧
      schema.normalizeDn ⟨givenAbove⟩ = .ok ⟨above⟩ := by
  rw [normalizeDn_eq_ok_iff, steps, List.forall₂_cons_right_iff] at normalized
  obtain ⟨given, givenAbove, first, rest, whole⟩ := normalized
  exact ⟨given, givenAbove, whole, first, normalizeDn_eq_ok_iff.mpr rest⟩

theorem normalizeDn_eq_self_iff : schema.normalizeDn dn = .ok dn ↔
    ∀ rdn ∈ dn.rdns, schema.normalizeRdn rdn = .ok rdn := by
  rw [normalizeDn_eq_ok_iff, List.forall₂_same]

theorem normalizeDn_self (normalized : schema.normalizeDn givenDn = .ok dn) :
    schema.normalizeDn dn = .ok dn := by
  rw [normalizeDn_eq_ok_iff] at normalized
  rw [normalizeDn_eq_self_iff]
  obtain ⟨givenRdns⟩ := givenDn
  obtain ⟨rdns⟩ := dn
  dsimp only at normalized ⊢
  induction normalized with
  | nil => simp
  | cons first _ ih => exact List.forall_mem_cons.mpr ⟨normalizeRdn_self first, ih⟩

theorem isRoot_of_normalizeDn (normalized : schema.normalizeDn givenDn = .ok dn) :
    dn.isRoot = givenDn.isRoot := by
  have counted := (normalizeDn_eq_ok_iff.mp normalized).length_eq
  rw [Dn.isRoot, Dn.isRoot, Bool.eq_iff_iff, List.isEmpty_iff_length_eq_zero,
    List.isEmpty_iff_length_eq_zero, counted]

theorem normalizeDn_child (normalized : schema.normalizeDn givenDn = .ok dn)
    (stepNormalized : schema.normalizeRdn given = .ok rdn) :
    schema.normalizeDn (givenDn.child given) = .ok (dn.child rdn) :=
  normalizeDn_eq_ok_iff.mpr (.cons stepNormalized (normalizeDn_eq_ok_iff.mp normalized))

end Schema

end Directory
