import Directory.Proofs.Name.Blanks
import Directory.Proofs.Name.StorageKey
import Mathlib.Data.List.Forall2

namespace Directory

open Text

/-! # Names read from their own texts

A name is found again in its own text step by step: cutting at unescaped commas gives the texts
of its steps, and each of these gives its type and its value, less the blanks in front that the
writer did not protect. -/

theorem map_eq_map_iff_forall₂ {α β γ : Type} {f : α → γ} {g : β → γ} {left : List α}
    {right : List β} :
    left.map f = right.map g ↔ List.Forall₂ (fun ours theirs => f ours = g theirs) left right := by
  rw [← List.forall₂_eq_eq_eq, List.forall₂_map_left_iff, List.forall₂_map_right_iff]

namespace Rdn

/-- The type and the value as they were given. -/
def form (rdn : Rdn) : Text × Text := (rdn.attrType, rdn.value)

/-- A step as it is read from the text of another one. -/
structure Rereads (rdn read : Rdn) : Prop where
  attrType : read.attrType = rdn.attrType
  value : read.value = reread rdn.value
  normType : read.normType = asciiLower rdn.attrType
  normValue : read.normValue = rdn.normValue

/-- A step that was read from a text or made from a type and a plain value. -/
inductive Obtained : Rdn → Prop where
  | read {text : Text} {rdn : Rdn} (parsed : parse text = .ok rdn) : Obtained rdn
  | made {attrType value : Text} {rdn : Rdn} (built : make attrType value = .ok rdn) : Obtained rdn

variable {rdn read left right : Rdn}

theorem not_mem_attrType (rdn : Rdn) {mark : Char} (unlettered : mark.isAlphanum = false)
    (unmarked : mark ∉ (['-', '.', ';'] : Text)) : mark ∉ rdn.attrType :=
  not_mem_of_described (isAttributeType_characters rdn.typeValid) unlettered unmarked

theorem trim_attrType (rdn : Rdn) : rdn.attrType.trim = rdn.attrType :=
  trim_of_described (isAttributeType_characters rdn.typeValid)

theorem cutUnescaped?_text (rdn : Rdn) (separator : Char) (special : isSpecial separator = true)
    (absent : separator ∉ rdn.attrType) (other : separator ≠ '=') (rest : Text) :
    cutUnescaped? separator (rdn.text ++ rest) =
      (cutUnescaped? separator rest).map fun (before, after) => (rdn.text ++ before, after) := by
  have plain : '\\' ∉ rdn.attrType := rdn.not_mem_attrType (by decide) (by decide)
  rw [text, written, List.append_assoc, cutUnescaped?_append plain absent, List.cons_append,
    cutUnescaped?_plain (by decide), if_neg other.symm, cutUnescaped?_escapeValue special]
  simp [Option.map_map, Function.comp_def]

theorem cutUnescaped?_equals (rdn : Rdn) :
    cutUnescaped? '=' rdn.text = some (rdn.attrType, escapeValue rdn.value) := by
  have plain : '\\' ∉ rdn.attrType := rdn.not_mem_attrType (by decide) (by decide)
  rw [text, written, cutUnescaped?_append plain (equals_not_mem rdn.typeValid),
    cutUnescaped?_plain (by decide)]
  simp

theorem text_eq_iff : left.text = right.text ↔ left.form = right.form := by
  constructor
  · intro same
    have cuts := congrArg (cutUnescaped? '=') same
    rw [cutUnescaped?_equals, cutUnescaped?_equals, Option.some.injEq, Prod.mk.injEq] at cuts
    exact Prod.ext cuts.1 (escapeValue_injective cuts.2)
  · intro same
    obtain ⟨sameType, sameValue⟩ := Prod.mk.inj same
    rw [text, text, sameType, sameValue]

theorem exists_make (attrType value : Text) (valid : isAttributeType attrType.trim = true)
    (present : foldValue value ≠ []) :
    ∃ rdn, make attrType value = .ok rdn ∧ rdn.attrType = attrType.trim ∧ rdn.value = value ∧
      rdn.normType = asciiLower attrType.trim := by
  simp only [make, valid, present, ne_eq, not_false_eq_true, dif_pos]
  exact ⟨_, rfl, rfl, rfl, rfl⟩

theorem parse_text (rdn : Rdn) : ∃ read, parse rdn.text = .ok read ∧ rdn.Rereads read := by
  have single : splitUnescaped '+' rdn.text = [rdn.text] := by
    have uncut := rdn.cutUnescaped?_text '+' (by decide)
      (rdn.not_mem_attrType (by decide) (by decide)) (by decide) []
    rw [List.append_nil] at uncut
    rw [splitUnescaped_eq, uncut]
    rfl
  have present : foldValue rdn.value ≠ [] := rdn.normValue_eq ▸ rdn.normValue_ne
  obtain ⟨read, made, sameType, sameValue, lower⟩ := exists_make
    rdn.attrType (reread rdn.value)
    (rdn.trim_attrType.symm ▸ rdn.typeValid) (by rwa [foldValue_reread])
  rw [trim_attrType] at sameType lower
  refine ⟨read, ?_, sameType, sameValue, lower, ?_⟩
  · rw [parse, single, cutUnescaped?_equals]
    simp only [refuseIf, unescape_trimValue_escapeValue present]
    exact made
  · rw [read.normValue_eq, sameValue, foldValue_reread, rdn.normValue_eq]

theorem Obtained.normType_eq (obtained : rdn.Obtained) :
    rdn.normType = asciiLower rdn.attrType := by
  have ofMake {attrType value : Text} (made : make attrType value = .ok rdn) :
      rdn.normType = asciiLower rdn.attrType := by
    simp only [make] at made
    split at made
    · split at made
      · cases made
        rfl
      · contradiction
    · contradiction
  cases obtained with
  | made built => exact ofMake built
  | read parsed =>
    obtain ⟨_, _, parsed⟩ := bind_eq_ok_iff.mp parsed
    split at parsed
    · contradiction
    · obtain ⟨value, _, made⟩ := bind_eq_ok_iff.mp parsed
      exact ofMake made

theorem Rereads.key_eq (rereads : rdn.Rereads read) (obtained : rdn.Obtained) :
    read.key = rdn.key := by
  rw [key, key, rereads.normType, rereads.normValue, obtained.normType_eq]

theorem Rereads.form_eq_iff (rereads : rdn.Rereads read) :
    read.form = rdn.form ↔ losesBlanks rdn.value = false := by
  rw [form, form, rereads.attrType, rereads.value, Prod.mk.injEq, reread_eq_self_iff]
  exact and_iff_right rfl

end Rdn

namespace Dn

/-- The types and values of the steps as they were given. -/
def form (dn : Dn) : List (Text × Text) := dn.rdns.map Rdn.form

variable {dn read left right : Dn}

theorem splitUnescaped_text (named : dn.rdns ≠ []) :
    splitUnescaped ',' dn.text = dn.rdns.map Rdn.text := by
  obtain ⟨rdns⟩ := dn
  simp only [text]
  induction rdns with
  | nil => exact absurd rfl named
  | cons first rest ih =>
    have passes := first.cutUnescaped?_text ',' (by decide)
      (first.not_mem_attrType (by decide) (by decide)) (by decide)
    cases rest with
    | nil =>
      have uncut := passes []
      rw [List.append_nil] at uncut
      rw [splitUnescaped_eq]
      simp [joinWith, uncut, cutUnescaped?]
    | cons next others =>
      have later := ih (by simp)
      simp only [List.map_cons, joinWith] at later ⊢
      rw [splitUnescaped_eq, passes, cutUnescaped?_plain (by decide)]
      simpa using later

theorem equals_mem_text (named : dn.rdns ≠ []) : '=' ∈ dn.text := by
  obtain ⟨rdns⟩ := dn
  rcases rdns with _ | ⟨first, _ | ⟨next, others⟩⟩
  · exact absurd rfl named
  all_goals simp [text, joinWith, Rdn.text, Rdn.written]

theorem text_eq_nil_iff : dn.text = [] ↔ dn.rdns = [] := by
  constructor
  · intro blank
    by_contra named
    exact List.ne_nil_of_mem (equals_mem_text named) blank
  · intro root
    rw [text, root]
    rfl

theorem text_eq_iff : left.text = right.text ↔ left.form = right.form := by
  constructor
  · intro same
    by_cases root : left.rdns = []
    · have otherRoot := text_eq_nil_iff.mp (same ▸ text_eq_nil_iff.mpr root)
      rw [form, form, root, otherRoot]
    · have otherNamed : right.rdns ≠ [] := fun otherRoot =>
        root (text_eq_nil_iff.mp (same.trans (text_eq_nil_iff.mpr otherRoot)))
      have texts := congrArg (splitUnescaped ',') same
      rw [splitUnescaped_text root, splitUnescaped_text otherNamed,
        map_eq_map_iff_forall₂] at texts
      exact map_eq_map_iff_forall₂.mpr (texts.imp fun _ _ => Rdn.text_eq_iff.mp)
  · intro same
    rw [form, form, map_eq_map_iff_forall₂] at same
    have texts : left.rdns.map Rdn.text = right.rdns.map Rdn.text :=
      map_eq_map_iff_forall₂.mpr (same.imp fun _ _ => Rdn.text_eq_iff.mpr)
    rw [text, text, texts]

theorem parse_text (dn : Dn) :
    ∃ read, parse dn.text = .ok read ∧ List.Forall₂ Rdn.Rereads dn.rdns read.rdns := by
  by_cases root : dn.rdns = []
  · refine ⟨Dn.root, ?_, root ▸ .nil⟩
    rw [text_eq_nil_iff.mpr root]
    rfl
  · have steps (rdns : List Rdn) : ∃ reads, (rdns.map Rdn.text).mapM Rdn.parse = .ok reads ∧
        List.Forall₂ Rdn.Rereads rdns reads := by
      induction rdns with
      | nil => exact ⟨[], rfl, .nil⟩
      | cons first rest ih =>
        obtain ⟨read, parsed, rereads⟩ := first.parse_text
        obtain ⟨others, othersParsed, othersReread⟩ := ih
        exact ⟨read :: others, mapM_cons_eq_ok_iff.mpr ⟨_, _, parsed, othersParsed, rfl⟩,
          .cons rereads othersReread⟩
    obtain ⟨reads, parsed, rereads⟩ := steps dn.rdns
    refine ⟨⟨reads⟩, ?_, rereads⟩
    have kept := mem_trim (equals_mem_text root) (by decide)
    have solid : dn.text.trim.isEmpty = false :=
      List.isEmpty_eq_false_iff.mpr (List.ne_nil_of_mem kept)
    rw [parse, solid, splitUnescaped_text root, parsed]
    rfl

theorem obtained_of_parse {given : Text} (parsed : parse given = .ok dn) :
    ∀ rdn ∈ dn.rdns, rdn.Obtained := by
  simp only [parse] at parsed
  split at parsed
  · cases parsed
    exact fun rdn member => absurd member List.not_mem_nil
  · obtain ⟨rdns, steps, made⟩ := bind_eq_ok_iff.mp parsed
    cases made
    intro rdn member
    obtain ⟨raw, _, read⟩ := exists_of_mem_mapM steps member
    exact .read read

theorem path_eq_of_rereads (rereads : List.Forall₂ Rdn.Rereads dn.rdns read.rdns)
    (obtained : ∀ rdn ∈ dn.rdns, rdn.Obtained) : read.path = dn.path := by
  obtain ⟨rdns⟩ := dn
  obtain ⟨reads⟩ := read
  simp only [path] at rereads obtained ⊢
  induction rereads with
  | nil => rfl
  | cons first _ ih =>
    simp only [List.mem_cons, forall_eq_or_imp] at obtained
    rw [List.map_cons, List.map_cons, first.key_eq obtained.1, ih obtained.2]

theorem form_eq_iff_of_rereads (rereads : List.Forall₂ Rdn.Rereads dn.rdns read.rdns) :
    read.form = dn.form ↔ ∀ rdn ∈ dn.rdns, Rdn.losesBlanks rdn.value = false := by
  obtain ⟨rdns⟩ := dn
  obtain ⟨reads⟩ := read
  simp only [form] at rereads ⊢
  induction rereads with
  | nil => simp
  | cons first _ ih => simp [first.form_eq_iff, ih]

theorem attrTypes_eq_of_rereads (rereads : List.Forall₂ Rdn.Rereads dn.rdns read.rdns) :
    read.rdns.map Rdn.attrType = dn.rdns.map Rdn.attrType := by
  exact map_eq_map_iff_forall₂.mpr (rereads.imp fun _ _ same => same.attrType).flip

/-- The text of a name that was read, and that of a step, can be read again and gives an equal
name with the same types.  It gives the same values, and the same text once more, exactly if no
value starts with a blank other than a space. -/
theorem text_keeps_form_iff {given : Text} {dn : Dn} {rdn : Rdn} (parsed : parse given = .ok dn)
    (obtained : rdn.Obtained) :
    (∃ read, parse dn.text = .ok read ∧ (read == dn) = true ∧
        read.rdns.map Rdn.attrType = dn.rdns.map Rdn.attrType ∧
        (read.form = dn.form ↔ ∀ step ∈ dn.rdns, Rdn.losesBlanks step.value = false) ∧
        (read.text = dn.text ↔ ∀ step ∈ dn.rdns, Rdn.losesBlanks step.value = false)) ∧
      ∃ read, Rdn.parse rdn.text = .ok read ∧ (read == rdn) = true ∧
        read.attrType = rdn.attrType ∧
        (read.form = rdn.form ↔ Rdn.losesBlanks rdn.value = false) ∧
        (read.text = rdn.text ↔ Rdn.losesBlanks rdn.value = false) := by
  obtain ⟨read, again, rereads⟩ := dn.parse_text
  obtain ⟨step, stepAgain, stepRereads⟩ := rdn.parse_text
  have forms := form_eq_iff_of_rereads rereads
  have stepForms := stepRereads.form_eq_iff
  refine ⟨⟨read, again, ?_, attrTypes_eq_of_rereads rereads, forms, text_eq_iff.trans forms⟩,
    step, stepAgain, ?_, stepRereads.attrType, stepForms, Rdn.text_eq_iff.trans stepForms⟩
  · exact beq_iff_path.mpr (path_eq_of_rereads rereads (obtained_of_parse parsed))
  · exact Rdn.beq_iff_key.mpr (stepRereads.key_eq obtained)

/-- A value with protected spaces at both ends, a comma and a backslash, one that ends in a line
feed, and one that starts with `#`. -/
theorem text_keeps_form_protected :
    ∃ (dn read : Dn) (rdn step : Rdn),
      parse "cn=\\20a\\2C\\5C\\20,o=x\\0A" = .ok dn ∧ Rdn.make "cn" "#+b" = .ok rdn ∧
      parse dn.text = .ok read ∧ read.form = dn.form ∧
      dn.form = ([("cn", " a,\\ "), ("o", "x\n")] : List (Text × Text)) ∧
      Rdn.parse rdn.text = .ok step ∧ step.form = rdn.form := by
  have run : (do
      let dn ← parse "cn=\\20a\\2C\\5C\\20,o=x\\0A"
      let rdn ← Rdn.make "cn" "#+b"
      Except.ok (decide (dn.form = ([("cn", " a,\\ "), ("o", "x\n")] : List (Text × Text)) ∧
        (∀ step ∈ dn.rdns, Rdn.losesBlanks step.value = false) ∧
        Rdn.losesBlanks rdn.value = false))) = Except.ok (ε := Error) true := by
    decide +kernel
  obtain ⟨dn, parsed, run⟩ := bind_eq_ok_iff.mp run
  obtain ⟨rdn, made, run⟩ := bind_eq_ok_iff.mp run
  obtain ⟨form, protectedNames, protectedStep⟩ := of_decide_eq_true (Except.ok.inj run)
  obtain ⟨⟨read, again, _, _, same, _⟩, step, stepAgain, _, _, stepSame, _⟩ :=
    text_keeps_form_iff parsed (.made made)
  exact ⟨dn, read, rdn, step, parsed, made, again, same.mpr protectedNames, form, stepAgain,
    stepSame.mpr protectedStep⟩

/-- A tab that is written as an escape stands unprotected in the text of the name, and the reader
drops it. -/
theorem text_loses_tab :
    ∃ dn read : Dn, parse "cn=\\09a" = .ok dn ∧ parse dn.text = .ok read ∧
      dn.form = ([("cn", "\ta")] : List (Text × Text)) ∧
      read.form = ([("cn", "a")] : List (Text × Text)) ∧ read.text ≠ dn.text := by
  have run : (do
      let dn ← parse "cn=\\09a"
      let read ← parse dn.text
      Except.ok (decide (dn.form = ([("cn", "\ta")] : List (Text × Text)) ∧
        read.form = ([("cn", "a")] : List (Text × Text)) ∧ read.text ≠ dn.text))) =
        Except.ok (ε := Error) true := by
    decide +kernel
  obtain ⟨dn, parsed, run⟩ := bind_eq_ok_iff.mp run
  obtain ⟨read, again, run⟩ := bind_eq_ok_iff.mp run
  exact ⟨dn, read, parsed, again, of_decide_eq_true (Except.ok.inj run)⟩

end Dn

end Directory
