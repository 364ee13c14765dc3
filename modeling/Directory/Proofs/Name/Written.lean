import Directory.Name.Basic
import Directory.Proofs.Text.Characters
import Directory.Proofs.Text.Pieces

namespace Directory

open Text

/-! # Reading written steps back

A written step shows its type, an equals sign and the escaped value.  Each part of it can be
found again whatever stands behind it: the type ends at the first equals sign, the value at
the first special character that no backslash escapes, and resolving the escapes gives back
the value. -/

namespace Text

theorem cutUnescaped?_plain {separator c : Char} (plain : c ≠ '\\') (rest : Text) :
    cutUnescaped? separator (c :: rest) =
      if c = separator then some ([], rest)
      else (cutUnescaped? separator rest).map fun (before, after) => (c :: before, after) := by
  rw [cutUnescaped?.eq_4]
  · rintro rfl
    exact absurd rfl plain
  · rintro _ _ rfl
    exact absurd rfl plain

end Text

namespace Rdn

/-- How a character stands in a written value. -/
def shown (escaped : Bool) (c : Char) : Text := if escaped then ['\\', c] else [c]

theorem escapeRest_cons (c : Char) (rest : Text) :
    escapeRest (c :: rest) =
      shown (isSpecial c || (c == ' ' && rest.isEmpty)) c ++ escapeRest rest := rfl

theorem escapeValue_cons (c : Char) (rest : Text) :
    escapeValue (c :: rest) =
      shown (isSpecial c || c == '#' || c == ' ') c ++ escapeRest rest := rfl

theorem cutUnescaped?_shown {separator c : Char} {escaped : Bool}
    (special : isSpecial separator = true) (covered : isSpecial c = true → escaped = true)
    (rest : Text) :
    cutUnescaped? separator (shown escaped c ++ rest) =
      (cutUnescaped? separator rest).map fun (before, after) =>
        (shown escaped c ++ before, after) := by
  cases escaped with
  | true => simp [shown, cutUnescaped?]
  | false =>
    have ordinary : isSpecial c = false := by simpa using mt covered
    have plain : c ≠ '\\' := by
      rintro rfl
      simp [isSpecial] at ordinary
    have other : c ≠ separator := by
      rintro rfl
      simp [special] at ordinary
    simp [shown, cutUnescaped?_plain plain, other]

theorem cutUnescaped?_escapeRest {separator : Char} (special : isSpecial separator = true)
    (value rest : Text) :
    cutUnescaped? separator (escapeRest value ++ rest) =
      (cutUnescaped? separator rest).map fun (before, after) =>
        (escapeRest value ++ before, after) := by
  induction value with
  | nil => simp [escapeRest]
  | cons c later ih =>
    rw [escapeRest_cons, List.append_assoc,
      cutUnescaped?_shown special (fun covered => by simp [covered]), ih]
    simp [Option.map_map, Function.comp_def]

theorem cutUnescaped?_escapeValue {separator : Char} (special : isSpecial separator = true)
    (value rest : Text) :
    cutUnescaped? separator (escapeValue value ++ rest) =
      (cutUnescaped? separator rest).map fun (before, after) =>
        (escapeValue value ++ before, after) := by
  cases value with
  | nil => simp [escapeValue]
  | cons c later =>
    rw [escapeValue_cons, List.append_assoc,
      cutUnescaped?_shown special (fun covered => by simp [covered]),
      cutUnescaped?_escapeRest special]
    simp [Option.map_map, Function.comp_def]

/-- The comma behind a written value is the first that no backslash escapes. -/
theorem cutUnescaped?_comma (value after : Text) :
    cutUnescaped? ',' (escapeValue value ++ ',' :: after) = some (escapeValue value, after) := by
  rw [cutUnescaped?_escapeValue (by rfl), cutUnescaped?_plain (by decide)]
  simp

theorem isEscapable_of_isSpecial {c : Char} (special : isSpecial c = true) :
    isEscapable c = true := by
  simp only [isSpecial, Bool.or_eq_true, beq_iff_eq] at special
  rcases special with ((((((rfl | rfl) | rfl) | rfl) | rfl) | rfl) | rfl) | rfl <;> rfl

theorem valuePieces?_plain {c : Char} (plain : c ≠ '\\') (rest : Text) :
    valuePieces? (c :: rest) = (valuePieces? rest).map (.plain c :: ·) := by
  rw [valuePieces?.eq_5]
  · rintro rfl
    exact absurd rfl plain
  · rintro _ rfl
    exact absurd rfl plain
  · rintro _ _ _ rfl
    exact absurd rfl plain

theorem valuePieces?_escaped {c : Char} (escapable : isEscapable c = true) (rest : Text) :
    valuePieces? ('\\' :: c :: rest) = (valuePieces? rest).map (.plain c :: ·) := by
  have digitless : hexDigit? c = none := by
    simp only [isEscapable, Bool.and_eq_true, Bool.not_eq_true'] at escapable
    exact hexDigit?_eq_none escapable.2
  cases rest with
  | nil => simp [valuePieces?, escapable]
  | cons d later => simp [valuePieces?, hexPair?, digitless, escapable]

theorem valuePieces?_shown {c : Char} {escaped : Bool}
    (covered : isSpecial c = true → escaped = true)
    (escapable : escaped = true → isEscapable c = true) (rest : Text) :
    valuePieces? (shown escaped c ++ rest) = (valuePieces? rest).map (.plain c :: ·) := by
  cases escaped with
  | true => exact valuePieces?_escaped (escapable rfl) rest
  | false =>
    refine valuePieces?_plain ?_ rest
    rintro rfl
    exact absurd (covered rfl) Bool.false_ne_true

theorem valuePieces?_escapeRest (value : Text) :
    valuePieces? (escapeRest value) = some (value.map .plain) := by
  induction value with
  | nil => rfl
  | cons c rest ih =>
    rw [escapeRest_cons, valuePieces?_shown (fun special => by simp [special]), ih]
    · rfl
    · intro escaped
      simp only [Bool.or_eq_true, Bool.and_eq_true, beq_iff_eq] at escaped
      rcases escaped with special | ⟨rfl, _⟩
      · exact isEscapable_of_isSpecial special
      · rfl

theorem valuePieces?_escapeValue (value : Text) :
    valuePieces? (escapeValue value) = some (value.map .plain) := by
  cases value with
  | nil => rfl
  | cons c rest =>
    rw [escapeValue_cons, valuePieces?_shown (fun special => by simp [special]),
      valuePieces?_escapeRest]
    · rfl
    · intro escaped
      simp only [Bool.or_eq_true, beq_iff_eq] at escaped
      rcases escaped with (special | rfl) | rfl
      · exact isEscapable_of_isSpecial special
      · rfl
      · rfl

theorem unescape_escapeValue (value : Text) : unescape (escapeValue value) = .ok value := by
  simp only [unescape, valuePieces?_escapeValue, ofPieces?_map_plain]

theorem escapeValue_injective : Function.Injective escapeValue := by
  intro left right same
  have resolved := congrArg unescape same
  simpa only [unescape_escapeValue, Except.ok.injEq] using resolved

end Rdn

end Directory
