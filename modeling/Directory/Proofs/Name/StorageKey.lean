import Mathlib.Control.Monad.Basic
import Directory.Proofs.Name.Tree
import Directory.Proofs.Name.Written
import Directory.Schema.Canonical
import Directory.Schema.Core

namespace Directory

open Text

/-! # Storage keys and the tree of names

A storage key spells the path of a name from the root down.  As long as no compared type
holds an equals sign, every step can be read back from the front of a key, so a key
determines its name and the keys at and below a name are the keys that start with its own.

The types that names get from texts are of that kind, and so are the primary names of a
schema that are attribute types. -/

/-- Whether the first equals sign of the compared form stands behind the type. -/
def Rdn.HasPlainType (rdn : Rdn) : Prop := '=' ∉ rdn.normType

def Dn.HasPlainTypes (dn : Dn) : Prop := ∀ rdn ∈ dn.rdns, rdn.HasPlainType

instance (rdn : Rdn) : Decidable rdn.HasPlainType := inferInstanceAs (Decidable (_ ∉ _))

instance (dn : Dn) : Decidable dn.HasPlainTypes := inferInstanceAs (Decidable (∀ _ ∈ _, _))

/-- Steps in their compared forms, each closed by a comma. -/
def Rdn.closedSteps (rdns : List Rdn) : Text := rdns.flatMap fun rdn => rdn.normalized ++ [',']

namespace Rdn

theorem closedSteps_cons (rdn : Rdn) (rest : List Rdn) :
    closedSteps (rdn :: rest) = rdn.normalized ++ ',' :: closedSteps rest := by
  simp [closedSteps]

theorem normalized_eq_of_key {left right : Rdn} (same : left.key = right.key) :
    left.normalized = right.normalized := by
  obtain ⟨sameType, sameValue⟩ := Prod.mk.inj same
  rw [normalized, normalized, sameType, sameValue]

/-- The first step of a text and what stands behind it can be read off. -/
theorem normalized_append_inj {left right : Rdn} {leftRest rightRest : Text}
    (leftPlain : left.HasPlainType) (rightPlain : right.HasPlainType)
    (same : left.normalized ++ ',' :: leftRest = right.normalized ++ ',' :: rightRest) :
    left.key = right.key ∧ leftRest = rightRest := by
  simp only [normalized, written, List.append_assoc, List.cons_append] at same
  have types := congrArg (cut? '=') same
  rw [cut?_append leftPlain, cut?_append rightPlain, Option.some.injEq, Prod.mk.injEq] at types
  obtain ⟨sameType, sameTail⟩ := types
  have values := congrArg (cutUnescaped? ',') sameTail
  rw [cutUnescaped?_comma, cutUnescaped?_comma, Option.some.injEq, Prod.mk.injEq] at values
  exact ⟨Prod.ext sameType (escapeValue_injective values.1), values.2⟩

theorem closedSteps_isPrefix_iff {left right : List Rdn}
    (leftPlain : ∀ rdn ∈ left, rdn.HasPlainType) (rightPlain : ∀ rdn ∈ right, rdn.HasPlainType) :
    closedSteps left <+: closedSteps right ↔ left.map key <+: right.map key := by
  induction left generalizing right with
  | nil => simp [closedSteps]
  | cons first rest ih =>
    cases right with
    | nil => simp [closedSteps, normalized, written]
    | cons other others =>
      simp only [List.mem_cons, forall_eq_or_imp] at leftPlain rightPlain
      rw [List.map_cons, List.map_cons, List.cons_prefix_cons, ← ih leftPlain.2 rightPlain.2,
        closedSteps_cons, closedSteps_cons]
      constructor
      · rintro ⟨behind, same⟩
        rw [List.append_assoc, List.cons_append] at same
        obtain ⟨sameStep, sameRest⟩ := normalized_append_inj leftPlain.1 rightPlain.1 same
        exact ⟨sameStep, behind, sameRest⟩
      · rintro ⟨sameStep, behind, same⟩
        refine ⟨behind, ?_⟩
        rw [List.append_assoc, List.cons_append, same, normalized_eq_of_key sameStep]

theorem closedSteps_inj {left right : List Rdn}
    (leftPlain : ∀ rdn ∈ left, rdn.HasPlainType) (rightPlain : ∀ rdn ∈ right, rdn.HasPlainType)
    (same : closedSteps left = closedSteps right) : left.map key = right.map key := by
  have lower := (closedSteps_isPrefix_iff leftPlain rightPlain).mp (same ▸ List.prefix_rfl)
  have upper := (closedSteps_isPrefix_iff rightPlain leftPlain).mp (same ▸ List.prefix_rfl)
  exact lower.eq_of_length_le upper.length_le

theorem closedSteps_eq_of_keys {left right : List Rdn} (same : left.map key = right.map key) :
    closedSteps left = closedSteps right := by
  induction left generalizing right with
  | nil =>
    cases right with
    | nil => rfl
    | cons other others => simp at same
  | cons first rest ih =>
    cases right with
    | nil => simp at same
    | cons other others =>
      simp only [List.map_cons, List.cons.injEq] at same
      rw [closedSteps_cons, closedSteps_cons, normalized_eq_of_key same.1, ih same.2]

end Rdn

namespace Dn

theorem storageKey_eq_closedSteps (dn : Dn) : dn.storageKey = Rdn.closedSteps dn.rdns.reverse :=
  rfl

theorem HasPlainTypes.reversed {dn : Dn} (plain : dn.HasPlainTypes) :
    ∀ rdn ∈ dn.rdns.reverse, rdn.HasPlainType :=
  fun rdn member => plain rdn (List.mem_reverse.mp member)

theorem storageKey_eq_of_path {left right : Dn} (same : left.path = right.path) :
    left.storageKey = right.storageKey := by
  refine Rdn.closedSteps_eq_of_keys ?_
  rw [List.map_reverse, List.map_reverse]
  exact congrArg List.reverse same

theorem HasPlainTypes.parent {dn parent : Dn} (plain : dn.HasPlainTypes)
    (found : dn.parent? = some parent) : parent.HasPlainTypes := by
  obtain ⟨rdn, rfl⟩ := parent?_eq_some_iff.mp found
  exact fun step member => plain step (List.mem_cons_of_mem _ member)

theorem HasPlainTypes.child {dn : Dn} {rdn : Rdn} (plain : dn.HasPlainTypes)
    (step : rdn.HasPlainType) : (dn.child rdn).HasPlainTypes :=
  List.forall_mem_cons.mpr ⟨step, plain⟩

theorem HasPlainTypes.of_lies {dn above : Dn} (plain : dn.HasPlainTypes)
    (lies : above.isAncestorOrSelfOf dn = true) : above.HasPlainTypes := by
  intro rdn member
  have listed := (isAncestorOrSelfOf_iff.mp lies).mem (List.mem_map_of_mem member)
  obtain ⟨other, otherMember, same⟩ := List.mem_map.mp listed
  have sameType : other.normType = rdn.normType := (Prod.mk.inj same).1
  rw [Rdn.HasPlainType, ← sameType]
  exact plain other otherMember

theorem storageKey_child (parent : Dn) (rdn : Rdn) :
    (parent.child rdn).storageKey = parent.storageKey ++ (rdn.normalized ++ [',']) := by
  simp [storageKey, child]

theorem parent_storageKey_isPrefix {dn parent : Dn} (found : dn.parent? = some parent) :
    parent.storageKey <+: dn.storageKey := by
  obtain ⟨rdn, rfl⟩ := parent?_eq_some_iff.mp found
  exact ⟨_, (storageKey_child parent rdn).symm⟩

theorem storageKey_isPrefix_below (steps : List Rdn) (base : Dn) :
    base.storageKey <+: (below steps base).storageKey := by
  rw [storageKey, storageKey, below, List.reverse_append, List.flatMap_append]
  exact List.prefix_append _ _

theorem storageKey_isPrefix_of_lies {above dn : Dn}
    (lies : above.isAncestorOrSelfOf dn = true) : above.storageKey <+: dn.storageKey := by
  have whole : dn.path = (below (dn.rdns.take (dn.length - above.length)) above).path :=
    (path_eq_append lies).trans (path_below _ _).symm
  rw [storageKey_eq_of_path whole]
  exact storageKey_isPrefix_below _ above

theorem storageKey_below_ne {steps : List Rdn} (more : steps ≠ []) (base : Dn) :
    (below steps base).storageKey ≠ base.storageKey := by
  cases steps with
  | nil => exact absurd rfl more
  | cons rdn above =>
    intro same
    have longer := congrArg List.length same
    have starts := (storageKey_isPrefix_below above base).length_le
    rw [show below (rdn :: above) base = (below above base).child rdn from rfl, storageKey_child,
      List.length_append, List.length_append, List.length_singleton] at longer
    omega

theorem path_eq_of_storageKey {above dn : Dn} (lies : above.isAncestorOrSelfOf dn = true)
    (same : dn.storageKey = above.storageKey) : dn.path = above.path := by
  have whole := path_eq_append lies
  by_contra different
  refine storageKey_below_ne (fun none => different ?_) above
    ((storageKey_eq_of_path (whole.trans (path_below _ _).symm)).symm.trans same)
  rw [whole, none]
  rfl

theorem storageKey_isPrefix_iff {above dn : Dn} (abovePlain : above.HasPlainTypes)
    (plain : dn.HasPlainTypes) :
    above.storageKey <+: dn.storageKey ↔ above.isAncestorOrSelfOf dn = true := by
  rw [isAncestorOrSelfOf_iff, storageKey_eq_closedSteps, storageKey_eq_closedSteps,
    Rdn.closedSteps_isPrefix_iff abovePlain.reversed plain.reversed, List.map_reverse,
    List.map_reverse, List.reverse_prefix]
  rfl

theorem storageKey_inj {left right : Dn} (leftPlain : left.HasPlainTypes)
    (rightPlain : right.HasPlainTypes) :
    left.storageKey = right.storageKey ↔ left.path = right.path := by
  refine ⟨fun same => ?_, storageKey_eq_of_path⟩
  have reversed := Rdn.closedSteps_inj leftPlain.reversed rightPlain.reversed same
  rwa [List.map_reverse, List.map_reverse, List.reverse_inj] at reversed

/-- Behind a last comma the compared form closes its steps, leaf first. -/
theorem normalized_append_comma {dn : Dn} (named : dn.rdns ≠ []) :
    dn.normalized ++ [','] = Rdn.closedSteps dn.rdns := by
  obtain ⟨rdns⟩ := dn
  simp only [normalized]
  induction rdns with
  | nil => exact absurd rfl named
  | cons first rest ih =>
    cases rest with
    | nil => simp [joinWith, Rdn.closedSteps]
    | cons next others =>
      have later := ih (by simp)
      simp only [List.map_cons] at later
      rw [Rdn.closedSteps_cons, ← later]
      simp [joinWith]

theorem normalized_eq_nil_iff {dn : Dn} : dn.normalized = [] ↔ dn.rdns = [] := by
  obtain ⟨rdns⟩ := dn
  rcases rdns with _ | ⟨first, _ | ⟨next, others⟩⟩ <;>
    simp [normalized, joinWith, Rdn.normalized, Rdn.written]

theorem normalized_inj {left right : Dn} (leftPlain : left.HasPlainTypes)
    (rightPlain : right.HasPlainTypes) :
    left.normalized = right.normalized ↔ left.path = right.path := by
  by_cases leftRoot : left.rdns = []
  · rw [normalized_eq_nil_iff.mpr leftRoot, path, leftRoot, eq_comm, normalized_eq_nil_iff]
    simp [path, eq_comm]
  by_cases rightRoot : right.rdns = []
  · rw [normalized_eq_nil_iff.mpr rightRoot, normalized_eq_nil_iff]
    simp [path, rightRoot]
  rw [← List.append_left_inj [','], normalized_append_comma leftRoot,
    normalized_append_comma rightRoot]
  exact ⟨Rdn.closedSteps_inj leftPlain rightPlain, Rdn.closedSteps_eq_of_keys⟩

end Dn

theorem equals_not_mem {attrType : Text} (valid : isAttributeType attrType = true) :
    '=' ∉ attrType :=
  not_mem_of_described (isAttributeType_characters valid) (by decide) (by decide)

theorem Rdn.hasPlainType_of_make {attrType value : Text} {rdn : Rdn}
    (made : Rdn.make attrType value = .ok rdn) : rdn.HasPlainType := by
  simp only [make] at made
  split at made
  · next valid =>
    split at made
    · cases made
      exact mt (mem_asciiLower_iff (by rfl)).mp (equals_not_mem valid)
    · contradiction
  · contradiction

theorem Rdn.hasPlainType_of_parse {text : Text} {rdn : Rdn} (read : Rdn.parse text = .ok rdn) :
    rdn.HasPlainType := by
  obtain ⟨_, _, read⟩ := bind_eq_ok_iff.mp read
  split at read
  · contradiction
  · obtain ⟨value, _, made⟩ := bind_eq_ok_iff.mp read
    exact hasPlainType_of_make made

theorem Dn.hasPlainTypes_of_parse {text : Text} {dn : Dn} (read : Dn.parse text = .ok dn) :
    dn.HasPlainTypes := by
  simp only [parse] at read
  split at read
  · cases read
    exact fun rdn member => absurd member List.not_mem_nil
  · obtain ⟨rdns, steps, made⟩ := bind_eq_ok_iff.mp read
    cases made
    intro rdn member
    obtain ⟨raw, _, read⟩ := exists_of_mem_mapM steps member
    exact Rdn.hasPlainType_of_parse read

/-- No primary name of the schema holds an equals sign. -/
def Schema.HasPlainNames (schema : Schema) : Prop :=
  ∀ type ∈ schema.attributeTypes, '=' ∉ type.primaryName

instance (schema : Schema) : Decidable schema.HasPlainNames :=
  inferInstanceAs (Decidable (∀ _ ∈ _, _))

/-- Two types, one of which is called `x=1,cn`.  The other is called `x`, and so the names
`1.2.3=b` and `cn=b,x=1` get one key. -/
def SchemaExtensions.oddlyNamed : SchemaExtensions where
  attributeTypes := [
    { oid := "1.2.3", names := ["x=1,cn"], syntaxOid := ValueSyntax.directoryString.oid },
    { oid := "1.2.4", names := ["x"], syntaxOid := ValueSyntax.directoryString.oid }]

/-- Every type of the schema has an attribute type for its primary name. -/
def Schema.HasTypeNames (schema : Schema) : Prop :=
  ∀ type ∈ schema.attributeTypes, isAttributeType type.primaryName = true

theorem Schema.HasTypeNames.plain {schema : Schema} (named : schema.HasTypeNames) :
    schema.HasPlainNames :=
  fun type listed => equals_not_mem (named type listed)

theorem Schema.hasPlainType_of_normalizeRdn {schema : Schema} (named : schema.HasPlainNames)
    {given rdn : Rdn} (normalized : schema.normalizeRdn given = .ok rdn) : rdn.HasPlainType := by
  simp only [normalizeRdn] at normalized
  split at normalized
  · contradiction
  · next type known =>
    cases normalized
    exact mt (mem_asciiLower_iff (by rfl)).mp (named type (mem_attributeTypes known))

theorem Schema.hasPlainTypes_of_normalizeDn {schema : Schema} (named : schema.HasPlainNames)
    {given dn : Dn} (normalized : schema.normalizeDn given = .ok dn) : dn.HasPlainTypes := by
  obtain ⟨rdns, steps, made⟩ := bind_eq_ok_iff.mp normalized
  cases made
  intro rdn member
  obtain ⟨step, _, normalized⟩ := exists_of_mem_mapM steps member
  exact hasPlainType_of_normalizeRdn named normalized

/-- The names that a service works with: read from a text, or brought to canonical form by a
schema whose primary names are attribute types. -/
inductive Dn.Obtained : Dn → Prop where
  | read {text : Text} {dn : Dn} (parsed : Dn.parse text = .ok dn) : Obtained dn
  | canonical {schema : Schema} {given dn : Dn} (named : schema.HasTypeNames)
      (normalized : schema.normalizeDn given = .ok dn) : Obtained dn

theorem Dn.Obtained.hasPlainTypes {dn : Dn} (obtained : dn.Obtained) : dn.HasPlainTypes := by
  cases obtained with
  | read parsed => exact hasPlainTypes_of_parse parsed
  | canonical named normalized => exact Schema.hasPlainTypes_of_normalizeDn named.plain normalized

/-- The keys of names order them as the tree does: equal names have equal keys, and a name
lies at or below another exactly if its key starts with the other's. -/
theorem Dn.storageKey_embeds_tree {left right : Dn} (leftObtained : left.Obtained)
    (rightObtained : right.Obtained) :
    (left.storageKey = right.storageKey ↔ (left == right) = true) ∧
      (left.normalized = right.normalized ↔ (left == right) = true) ∧
      (left.storageKey <+: right.storageKey ↔ left.isAncestorOrSelfOf right = true) := by
  have leftPlain := leftObtained.hasPlainTypes
  have rightPlain := rightObtained.hasPlainTypes
  rw [beq_iff_path]
  exact ⟨storageKey_inj leftPlain rightPlain, normalized_inj leftPlain rightPlain,
    storageKey_isPrefix_iff leftPlain rightPlain⟩

theorem Schema.core_hasTypeNames : Schema.core.HasTypeNames := by
  show ∀ type ∈ Schema.core.attributeTypes, isAttributeType type.primaryName = true
  decide +kernel

/-- A canonical name above one whose value starts with `#`, holds a comma, quotation marks and
a letter beyond ASCII, and ends in a backslash. -/
theorem Dn.storageKey_embeds_tree_escaped :
    ∃ above below : Dn,
      Schema.core.normalize "organizationName=x\\=y\\+z" = .ok above ∧
      Dn.parse ("cn=\\#a\\, \\\"b\\\" " ++ '\u00e9' :: "\\\\,O=X\\=Y\\+Z") = .ok below ∧
      above.isAncestorOrSelfOf below = true ∧
      (above.storageKey = below.storageKey ↔ (above == below) = true) ∧
      (above.normalized = below.normalized ↔ (above == below) = true) ∧
      (above.storageKey <+: below.storageKey ↔ above.isAncestorOrSelfOf below = true) := by
  have lies : (do
      let above ← Schema.core.normalize "organizationName=x\\=y\\+z"
      let below ← Dn.parse ("cn=\\#a\\, \\\"b\\\" " ++ '\u00e9' :: "\\\\,O=X\\=Y\\+Z")
      Except.ok (above.isAncestorOrSelfOf below)) = Except.ok (ε := Error) true := by
    decide +kernel
  obtain ⟨above, normalized, lies⟩ := bind_eq_ok_iff.mp lies
  obtain ⟨below, read, lies⟩ := bind_eq_ok_iff.mp lies
  obtain ⟨given, _, canonical⟩ := bind_eq_ok_iff.mp normalized
  exact ⟨above, below, normalized, read, Except.ok.inj lies,
    storageKey_embeds_tree (.canonical Schema.core_hasTypeNames canonical) (.read read)⟩

end Directory
