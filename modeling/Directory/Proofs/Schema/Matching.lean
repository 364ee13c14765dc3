import Directory.Proofs.Name.LetterCase
import Directory.Proofs.Text.Decimal
import Directory.Proofs.Text.Pieces
import Directory.Schema.Definition

namespace Directory

open Text

/-! # Letter case and matching rules

A matching rule that does not count letter case takes texts that differ only in it for one value,
as long as it can read them.  The other way round it tells more texts apart than letter case does,
except on plain texts, where nothing but letter case is left to ignore. -/

namespace Text

variable {text : Text}

/-- The text is made of ASCII characters, with single spaces between its words and none around
them. -/
structure IsPlain (text : Text) : Prop where
  ascii : ∀ c ∈ text, c.toNat < 0x80
  folded : text.foldBlanks = text

theorem solid_ends_joinWith {texts : List Text}
    (words : ∀ text ∈ texts, text ≠ [] ∧ ∀ c ∈ text, isBlank c = false) :
    (texts ≠ [] → joinWith ' ' texts ≠ []) ∧
      (∀ c ∈ (joinWith ' ' texts).head?, isBlank c = false) ∧
      ∀ c ∈ (joinWith ' ' texts).getLast?, isBlank c = false := by
  fun_induction joinWith ' ' texts with
  | case1 => simp
  | case2 text =>
    obtain ⟨present, solid⟩ := words text List.mem_cons_self
    exact ⟨fun _ => present, fun c first => solid c (List.mem_of_mem_head? first),
      fun c last => solid c (List.mem_of_mem_getLast? last)⟩
  | case3 text next others ih =>
    obtain ⟨present, solid⟩ := words text List.mem_cons_self
    obtain ⟨restPresent, _, last⟩ :=
      ih fun text listed => words text (List.mem_cons_of_mem _ listed)
    refine ⟨by simp, ?_, ?_⟩
    · intro c first
      rw [List.head?_append, List.head?_eq_some_head present] at first
      cases first
      exact solid _ (List.head_mem present)
    · intro c isLast
      refine last c ?_
      cases rest : joinWith ' ' (next :: others) with
      | nil => exact absurd rest (restPresent (List.cons_ne_nil _ _))
      | cons d later => simpa [rest] using isLast

theorem trim_of_foldBlanks (folded : text.foldBlanks = text) : text.trim = text := by
  obtain ⟨_, first, last⟩ := solid_ends_joinWith fun word (listed : word ∈ words text) =>
    word_shape listed
  rw [← foldBlanks, folded] at first last
  exact trim_eq_self_of_ends first last

end Text

namespace MatchingRule

variable {rule : MatchingRule} {held value : Text}

theorem integerOf?_eq_of_sameIgnoringCase (same : sameIgnoringCase held value = true) :
    integerOf? held = integerOf? value := by
  have lowered (text : Text) : integerOf? (asciiLower text) = integerOf? text := by
    rw [integerOf?, trim_asciiLower, signedValue?_asciiLower, integerOf?]
  rw [← lowered held, sameIgnoringCase_iff.mp same, lowered]

theorem equates_distinguishedName (left right : Text) :
    distinguishedName.equates left right =
      match (Dn.parse left).toOption.map Dn.path, (Dn.parse right).toOption.map Dn.path with
      | some x, some y => x == y
      | _, _ => false := by
  rw [equates]
  cases Dn.parse left <;> cases Dn.parse right <;> rfl

/-- Texts that are the same but for letter case are one value, if it is one at all. -/
theorem equates_of_sameIgnoringCase (uncased : rule ≠ .caseExact)
    (same : sameIgnoringCase held value = true) :
    rule.equates held value = rule.equates value value := by
  cases rule with
  | caseIgnore => rw [equates, equates, foldValue_eq_of_sameIgnoringCase same]
  | caseExact => exact absurd rfl uncased
  | integer => rw [equates, equates, integerOf?_eq_of_sameIgnoringCase same]
  | boolean =>
    rw [equates, equates, sameIgnoringCase, ← trim_asciiLower, sameIgnoringCase_iff.mp same,
      trim_asciiLower, sameIgnoringCase]
  | distinguishedName =>
    have paths : (Dn.parse held).toOption.map Dn.path = (Dn.parse value).toOption.map Dn.path := by
      rw [← Dn.path_parse_asciiLower held, sameIgnoringCase_iff.mp same, Dn.path_parse_asciiLower]
    rw [equates_distinguishedName, equates_distinguishedName, paths]

theorem sameIgnoringCase_of_equates (heldPlain : held.IsPlain) (valuePlain : value.IsPlain)
    (textual : rule = .caseIgnore ∨ rule = .caseExact ∨ rule = .boolean)
    (same : rule.equates held value = true) : sameIgnoringCase held value = true := by
  rcases textual with rfl | rfl | rfl
  · rwa [equates, beq_iff_eq, foldValue, foldValue, heldPlain.folded, valuePlain.folded,
      lowercase_of_ascii heldPlain.ascii, lowercase_of_ascii valuePlain.ascii,
      ← sameIgnoringCase_iff] at same
  · rw [equates, beq_iff_eq, heldPlain.folded, valuePlain.folded] at same
    rw [same]
    exact sameIgnoringCase_refl value
  · rwa [equates, trim_of_foldBlanks heldPlain.folded, trim_of_foldBlanks valuePlain.folded] at same

end MatchingRule

end Directory
