import Directory.Proofs.Name.Written
import Mathlib.Data.List.Induction

namespace Directory

open Text

/-! # Written values and blanks

The writer of a value protects a space at either end, while its reader drops every blank in front
and every unprotected space behind.  What is lost on the way is therefore a run of blanks in front
that does not start with a space, and nothing else. -/

namespace Text

theorem splitUnescaped_eq (separator : Char) (text : Text) :
    splitUnescaped separator text =
      match cutUnescaped? separator text with
      | none => [text]
      | some (before, after) => before :: splitUnescaped separator after := by
  fun_induction splitUnescaped separator text with
  | case1 => rfl
  | case2 => rfl
  | case3 c rest ih =>
    rw [ih, cutUnescaped?]
    cases cutUnescaped? separator rest <;> rfl
  | case4 rest single pair =>
    rw [cutUnescaped?.eq_4 _ _ _ single pair, if_pos rfl]
  | case5 c rest single pair other ih =>
    rw [ih, cutUnescaped?.eq_4 _ _ _ single pair, if_neg other]
    cases cutUnescaped? separator rest <;> rfl

theorem cutUnescaped?_append {separator : Char} {front : Text}
    (plain : '\\' ∉ front) (absent : separator ∉ front) (rest : Text) :
    cutUnescaped? separator (front ++ rest) =
      (cutUnescaped? separator rest).map fun (before, after) => (front ++ before, after) := by
  induction front with
  | nil => simp
  | cons c later ih =>
    simp only [List.mem_cons, not_or] at plain absent
    rw [List.cons_append, cutUnescaped?_plain (Ne.symm plain.1), if_neg (Ne.symm absent.1),
      ih plain.2 absent.2]
    simp [Option.map_map, Function.comp_def]

/-- Whether the last character is a backslash that no other one escapes. -/
def danglesBackslash (text : Text) : Bool :=
  text.foldl (fun escapes c => c == '\\' && !escapes) false

theorem odd_backslashes (text : Text) :
    ((text.reverse.takeWhile (· == '\\')).length % 2 == 1) = text.danglesBackslash := by
  induction text using List.reverseRecOn with
  | nil => rfl
  | append_singleton front c ih =>
    rw [danglesBackslash] at ih ⊢
    rw [List.foldl_append, List.reverse_concat, ← ih]
    by_cases backslash : c = '\\'
    · subst backslash
      rw [List.takeWhile_cons_of_pos (by rfl), List.length_cons, Bool.eq_iff_iff]
      simp only [List.foldl_cons, List.foldl_nil, beq_self_eq_true, Bool.true_and, beq_iff_eq,
        Bool.not_eq_true', beq_eq_false_iff_ne]
      omega
    · rw [List.takeWhile_cons_of_neg (by simpa using backslash)]
      simp [backslash]

theorem words_trimStart (text : Text) : words text.trimStart = words text := by
  induction text with
  | nil => rfl
  | cons c rest ih =>
    rw [trimStart, List.dropWhile_cons]
    split
    · next blank =>
      have skipped : words (c :: rest) = words rest := by simp [words, pieces, blank]
      rw [skipped, ← ih, trimStart]
    · rfl

end Text

theorem foldValue_trimStart (value : Text) : foldValue value.trimStart = foldValue value := by
  rw [foldValue, foldBlanks, words_trimStart, foldValue, foldBlanks]

theorem trimStart_ne_nil {value : Text} (present : foldValue value ≠ []) :
    value.trimStart ≠ [] := by
  intro blank
  rw [← foldValue_trimStart, blank] at present
  exact present rfl

namespace Rdn

/-- What is read back from a written value. -/
def reread (value : Text) : Text :=
  if value.head? = some ' ' then value else value.trimStart

/-- Whether a value starts with a blank that its written form does not protect. -/
def losesBlanks (value : Text) : Bool :=
  value.head?.any fun c => isBlank c && c != ' '

theorem reread_eq_self_iff {value : Text} : reread value = value ↔ losesBlanks value = false := by
  cases value with
  | nil => decide
  | cons c rest =>
    by_cases space : c = ' '
    · simp [reread, losesBlanks, space]
    · cases blank : isBlank c with
      | false => simp [reread, losesBlanks, space, blank, trimStart]
      | true =>
        have shorter : (rest.dropWhile isBlank).length ≤ rest.length :=
          (List.dropWhile_suffix isBlank).length_le
        have different : rest.dropWhile isBlank ≠ c :: rest := by
          intro same
          rw [same, List.length_cons] at shorter
          omega
        simpa [reread, losesBlanks, space, blank, trimStart] using different

theorem foldValue_reread (value : Text) : foldValue (reread value) = foldValue value := by
  rw [reread]
  split
  · rfl
  · exact foldValue_trimStart value

theorem isSpecial_of_isBlank {c : Char} (blank : isBlank c = true) : isSpecial c = false := by
  by_contra special
  simp only [isSpecial, Bool.not_eq_false, Bool.or_eq_true, beq_iff_eq] at special
  rcases special with ((((((rfl | rfl) | rfl) | rfl) | rfl) | rfl) | rfl) | rfl <;>
    exact absurd blank (by decide)

theorem danglesBackslash_shown {escaped : Bool} {c : Char}
    (covered : isSpecial c = true → escaped = true) (rest : Text) :
    (shown escaped c ++ rest).danglesBackslash = rest.danglesBackslash := by
  cases escaped with
  | true => simp [shown, danglesBackslash]
  | false =>
    have plain : c ≠ '\\' := by
      rintro rfl
      exact absurd (covered rfl) Bool.false_ne_true
    have closed : (c == '\\') = false := by simpa using plain
    simp [shown, danglesBackslash, closed]

theorem dropPlainSpaces_of_end {front : Text} {c : Char}
    (kept : c = ' ' → danglesBackslash front = true) :
    dropPlainSpaces (front ++ [c]).reverse = (front ++ [c]).reverse := by
  rw [List.reverse_concat]
  by_cases space : c = ' '
  · subst space
    rw [dropPlainSpaces, odd_backslashes, if_pos (kept rfl)]
  · rw [dropPlainSpaces]
    rintro rest ⟨rfl, _⟩
    exact space rfl

theorem exists_end_of_shown (escaped : Bool) (c : Char) (rest : Text)
    (covered : isSpecial c = true → escaped = true)
    (protectedEnd : rest = [] → c = ' ' → escaped = true) :
    ∃ front d, shown escaped c ++ escapeRest rest = front ++ [d] ∧
      (d = ' ' → danglesBackslash front = true) := by
  induction rest generalizing escaped c with
  | nil =>
    cases escaped with
    | true => exact ⟨['\\'], c, rfl, fun _ => rfl⟩
    | false => exact ⟨[], c, rfl, fun space => absurd (protectedEnd rfl space) Bool.false_ne_true⟩
  | cons next later ih =>
    obtain ⟨front, d, ends, kept⟩ := ih
      (isSpecial next || (next == ' ' && later.isEmpty)) next
      (fun special => by simp [special]) (fun last space => by simp [last, space])
    refine ⟨shown escaped c ++ front, d, ?_, fun space => ?_⟩
    · rw [escapeRest_cons, ends, List.append_assoc]
    · rw [danglesBackslash_shown covered, kept space]

theorem dropPlainSpaces_escapeRest (value : Text) :
    dropPlainSpaces (escapeRest value).reverse = (escapeRest value).reverse := by
  cases value with
  | nil => rfl
  | cons c rest =>
    obtain ⟨front, d, ends, kept⟩ := exists_end_of_shown
      (isSpecial c || (c == ' ' && rest.isEmpty)) c rest
      (fun special => by simp [special]) (fun last space => by simp [last, space])
    rw [escapeRest_cons, ends, dropPlainSpaces_of_end kept]

theorem dropPlainSpaces_escapeValue (value : Text) :
    dropPlainSpaces (escapeValue value).reverse = (escapeValue value).reverse := by
  cases value with
  | nil => rfl
  | cons c rest =>
    obtain ⟨front, d, ends, kept⟩ := exists_end_of_shown
      (isSpecial c || c == '#' || c == ' ') c rest
      (fun special => by simp [special]) (fun _ space => by simp [space])
    rw [escapeValue_cons, ends, dropPlainSpaces_of_end kept]

theorem trimStart_shown {escaped : Bool} {c : Char} (solid : escaped = true ∨ isBlank c = false)
    (rest : Text) : (shown escaped c ++ rest).trimStart = shown escaped c ++ rest := by
  cases escaped with
  | true => exact List.dropWhile_cons_of_neg (by decide)
  | false =>
    have plain : isBlank c = false := by simpa using solid
    exact List.dropWhile_cons_of_neg (by simp [plain])

theorem trimStart_escapeRest {value : Text} (present : value.trimStart ≠ []) :
    (escapeRest value).trimStart = escapeRest value.trimStart := by
  induction value with
  | nil => rfl
  | cons c rest ih =>
    rw [escapeRest_cons]
    cases blank : isBlank c with
    | false =>
      rw [trimStart_shown (.inr blank)]
      have kept : trimStart (c :: rest) = c :: rest :=
        List.dropWhile_cons_of_neg (by simp [blank])
      rw [kept, escapeRest_cons]
    | true =>
      have dropped : trimStart (c :: rest) = trimStart rest := List.dropWhile_cons_of_pos blank
      rw [dropped] at present ⊢
      have more : rest.isEmpty = false := by
        cases rest with
        | nil => exact absurd rfl present
        | cons => rfl
      rw [isSpecial_of_isBlank blank, more, Bool.and_false, Bool.or_false, ← ih present]
      exact List.dropWhile_cons_of_pos blank

/-- Trimming a written value and resolving its escapes loses at most the blanks in front. -/
theorem unescape_trimValue_escapeValue {value : Text} (present : foldValue value ≠ []) :
    unescape (trimValue (escapeValue value)) = .ok (reread value) := by
  cases value with
  | nil => exact absurd rfl present
  | cons c rest =>
    by_cases solid : (isSpecial c || c == '#' || c == ' ') = true ∨ isBlank c = false
    · have kept : reread (c :: rest) = c :: rest := by
        rw [reread_eq_self_iff]
        rcases solid with escaped | plain
        · by_contra loses
          simp only [losesBlanks, List.head?_cons, Option.any_some, Bool.not_eq_false,
            Bool.and_eq_true, bne_iff_ne] at loses
          have blankHash : c ≠ '#' := by
            rintro rfl
            exact absurd loses.1 (by decide)
          simp [isSpecial_of_isBlank loses.1, loses.2, blankHash] at escaped
        · simp [losesBlanks, plain]
      have front : trimStart (escapeValue (c :: rest)) = escapeValue (c :: rest) := by
        rw [escapeValue_cons, trimStart_shown solid]
      rw [trimValue, front, dropPlainSpaces_escapeValue, List.reverse_reverse,
        unescape_escapeValue, kept]
    · simp only [not_or, Bool.not_eq_true, Bool.not_eq_false, Bool.or_eq_false_iff,
        beq_eq_false_iff_ne] at solid
      obtain ⟨⟨⟨special, hash⟩, space⟩, blank⟩ := solid
      have dropped : trimStart (c :: rest) = trimStart rest := List.dropWhile_cons_of_pos blank
      have later := trimStart_ne_nil present
      rw [dropped] at later
      have front : trimStart (escapeValue (c :: rest)) = escapeRest (trimStart rest) := by
        rw [← trimStart_escapeRest later, escapeValue_cons]
        simp [shown, special, hash, space, trimStart, blank]
      have lost : reread (c :: rest) = trimStart rest := by
        rw [reread, List.head?_cons, if_neg (by simpa using space), dropped]
      rw [trimValue, front, dropPlainSpaces_escapeRest, List.reverse_reverse, lost, unescape,
        valuePieces?_escapeRest]
      simp only [ofPieces?_map_plain]

end Rdn

end Directory
