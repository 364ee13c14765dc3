import Directory.Proofs.Text.Characters

namespace Directory

open Text

/-! # The case of ASCII letters in folded forms

Folding of blanks keeps letter case, and lowercasing does not see it: texts that are the same up
to the case of ASCII letters fold to the same naming value. -/

namespace Text

variable {c : Char} {text left right : Text}

theorem pieces_map {separates : Char → Bool} {change : Char → Char}
    (kept : ∀ c, separates (change c) = separates c) (text : Text) :
    pieces separates (text.map change) = (pieces separates text).map (List.map change) := by
  induction text with
  | nil => rfl
  | cons c rest ih =>
    rw [List.map_cons, pieces, pieces, kept, ih]
    split
    · rfl
    · cases pieces separates rest <;> rfl

theorem words_asciiLower (text : Text) : words (asciiLower text) = (words text).map asciiLower := by
  rw [words, asciiLower, pieces_map isBlank_toLower, List.filter_map, words]
  congr 1
  apply List.filter_congr
  intro piece _
  cases piece <;> rfl

theorem joinWith_map_asciiLower (texts : List Text) :
    joinWith ' ' (texts.map asciiLower) = asciiLower (joinWith ' ' texts) := by
  fun_induction joinWith ' ' texts with
  | case1 => rfl
  | case2 text => rfl
  | case3 text next others ih =>
    rw [List.map_cons] at ih
    rw [List.map_cons, List.map_cons, joinWith, ih]
    simp [asciiLower]

theorem foldBlanks_asciiLower (text : Text) :
    (asciiLower text).foldBlanks = asciiLower text.foldBlanks := by
  rw [foldBlanks, words_asciiLower, joinWith_map_asciiLower, foldBlanks]

theorem toLower_of_not_ascii (beyond : 0x80 ≤ c.toNat) : c.toLower = c := by
  rw [← Char.toNat_inj, toNat_toLower, if_neg (by omega)]

theorem lowercaseChar_of_ascii (ascii : c.toNat < 0x80) : lowercaseChar c = [c.toLower] :=
  if_pos ascii

theorem lowercaseChar_toLower (c : Char) : lowercaseChar c.toLower = lowercaseChar c := by
  by_cases ascii : c.toNat < 0x80
  · have stillAscii : c.toLower.toNat < 0x80 := by
      rw [toNat_toLower]
      split <;> omega
    rw [lowercaseChar_of_ascii stillAscii, lowercaseChar_of_ascii ascii]
    exact asciiLower_asciiLower [c]
  · rw [toLower_of_not_ascii (Nat.le_of_not_lt ascii)]

theorem withinChanges_toLower (changes : List Nat)
    (alike : ∀ letter < 26,
      withinChanges changes (letter + 97) = withinChanges changes (letter + 65))
    (c : Char) : withinChanges changes c.toLower.toNat = withinChanges changes c.toNat := by
  rw [toNat_toLower]
  split
  · next capital =>
    have letter := alike (c.toNat - 65) (by omega)
    rwa [show c.toNat - 65 + 97 = c.toNat + 32 by omega,
      show c.toNat - 65 + 65 = c.toNat by omega] at letter
  · rfl

theorem startsCased_asciiLower (text : Text) :
    startsCased (asciiLower text) = startsCased text := by
  have ignorable := withinChanges_toLower caseIgnorableChanges (by decide +kernel)
  have sameTest : (fun c : Char => withinChanges caseIgnorableChanges c.toNat) ∘ Char.toLower =
      fun c => withinChanges caseIgnorableChanges c.toNat := funext ignorable
  rw [startsCased, asciiLower, List.dropWhile_map, sameTest, startsCased]
  cases text.dropWhile fun c => withinChanges caseIgnorableChanges c.toNat with
  | nil => rfl
  | cons c rest => exact withinChanges_toLower casedChanges (by decide +kernel) c

theorem lowercaseAfter_asciiLower (before text : Text) :
    lowercaseAfter (asciiLower before) (asciiLower text) = lowercaseAfter before text := by
  induction text generalizing before with
  | nil => rfl
  | cons c rest ih =>
    have later := ih (c :: before)
    have isSigma : (c.toLower.toNat == 0x3A3) = (c.toNat == 0x3A3) := by
      rw [Bool.eq_iff_iff, beq_iff_eq, beq_iff_eq, toNat_toLower]
      split <;> omega
    rw [show asciiLower (c :: before) = c.toLower :: asciiLower before from rfl] at later
    rw [show asciiLower (c :: rest) = c.toLower :: asciiLower rest from rfl, lowercaseAfter,
      lowercaseAfter, later, isSigma, lowercaseChar_toLower, lowercaseSigma, lowercaseSigma,
      startsCased_asciiLower, startsCased_asciiLower]

theorem lowercase_asciiLower (text : Text) : lowercase (asciiLower text) = lowercase text :=
  lowercaseAfter_asciiLower [] text

theorem lowercase_of_ascii (ascii : ∀ c ∈ text, c.toNat < 0x80) :
    lowercase text = asciiLower text := by
  have lowered (before text : Text) (ascii : ∀ c ∈ text, c.toNat < 0x80) :
      lowercaseAfter before text = asciiLower text := by
    induction text generalizing before with
    | nil => rfl
    | cons c rest ih =>
      have first := ascii c List.mem_cons_self
      rw [lowercaseAfter, if_neg (by simp; omega), lowercaseChar_of_ascii first,
        ih _ fun d listed => ascii d (List.mem_cons_of_mem _ listed)]
      rfl
  exact lowered [] text ascii

end Text

theorem foldValue_asciiLower (value : Text) : foldValue (asciiLower value) = foldValue value := by
  rw [foldValue, foldBlanks_asciiLower, lowercase_asciiLower, foldValue]

theorem foldValue_eq_of_sameIgnoringCase {left right : Text}
    (same : sameIgnoringCase left right = true) : foldValue left = foldValue right := by
  rw [← foldValue_asciiLower left, sameIgnoringCase_iff.mp same, foldValue_asciiLower]

end Directory
