import Directory.Text.Basic

namespace Directory.Text

/-! # Blanks

Blank characters and the operations that names, filters and settings build on them:
trimming, cutting a text into words, and joining the words again with single spaces.
Blank means the Unicode property `White_Space`. -/

/-- The code points with the property `White_Space`. -/
def isBlank (c : Char) : Bool :=
  let n := c.toNat
  if n < 0x80 then n == 0x20 || (9 ≤ n && n ≤ 13)
  else
    n == 0x85 || n == 0xA0 || n == 0x1680 || (0x2000 ≤ n && n ≤ 0x200A) || n == 0x2028 ||
      n == 0x2029 || n == 0x202F || n == 0x205F || n == 0x3000

def trimStart (text : Text) : Text := text.dropWhile isBlank

def trimEnd (text : Text) : Text := (text.reverse.dropWhile isBlank).reverse

/-- The text without the blanks at its two ends. -/
def trim (text : Text) : Text := trimEnd (trimStart text)

/-- Every stretch between two separators, the outer ones included, so that there is
one more piece than there are separators. -/
def pieces (separates : Char → Bool) : Text → List Text
  | [] => [[]]
  | c :: rest =>
    if separates c then [] :: pieces separates rest
    else
      match pieces separates rest with
      | [] => [[c]]
      | first :: others => (c :: first) :: others

/-- The maximal stretches without a blank. -/
def words (text : Text) : List Text :=
  (pieces isBlank text).filter fun piece => !piece.isEmpty

/-- The words of the text with one space between neighbours. -/
def foldBlanks (text : Text) : Text := joinWith ' ' (words text)

theorem pieces_free {separates : Char → Bool} {text piece : Text}
    (member : piece ∈ pieces separates text) : ∀ c ∈ piece, separates c = false := by
  induction text generalizing piece with
  | nil => simp_all [pieces]
  | cons c rest ih =>
    unfold pieces at member
    split at member
    · rcases List.mem_cons.mp member with rfl | member
      · simp
      · exact ih member
    · next plain =>
      split at member
      · simp_all
      · next first others found =>
        rcases List.mem_cons.mp member with rfl | member
        · intro d inside
          rcases List.mem_cons.mp inside with rfl | inside
          · simpa using plain
          · exact ih (by rw [found]; exact List.mem_cons_self) d inside
        · exact ih (by rw [found]; exact List.mem_cons_of_mem _ member)

/-- A word is never empty and holds no blank. -/
theorem word_shape {text word : Text} (member : word ∈ words text) :
    word ≠ [] ∧ ∀ c ∈ word, isBlank c = false := by
  simp only [words, List.mem_filter] at member
  exact ⟨by simpa using member.2, pieces_free member.1⟩

end Directory.Text
