namespace Directory

/-! # Texts

A text is a list of characters.  Texts are ordered by the code points of their
characters, which is also the order of their UTF-8 octets.  Attribute names, object
class names and stored values are compared by folds of ASCII letters, which leave every
other character alone. -/

abbrev Text := List Char

namespace Text

/-- The characters of a literal whose characters are ASCII, as all literals of this
library are: the octets of such a text are its characters. -/
def ofLiteral (literal : String) : Text :=
  literal.toByteArray.data.toList.map fun octet => Char.ofNat octet.toNat

instance : Coe String Text := ⟨ofLiteral⟩

/-- Whether one text comes before another: the first difference decides, and a text
comes before its continuations. -/
def precedes : Text → Text → Bool
  | [], [] => false
  | [], _ :: _ => true
  | _ :: _, [] => false
  | c :: rest, d :: others => if c = d then precedes rest others else decide (c.toNat < d.toNat)

/-- The texts in a row with a separator between neighbours. -/
def joinWith (separator : Char) : List Text → Text
  | [] => []
  | [text] => text
  | text :: next :: others => text ++ separator :: joinWith separator (next :: others)

/-- The text with the letters `A` to `Z` made small. -/
def asciiLower (text : Text) : Text := text.map Char.toLower

/-- Equality up to the case of ASCII letters. -/
def sameIgnoringCase (left right : Text) : Bool := asciiLower left == asciiLower right

/-- Membership in a set of code points given by the places where membership changes: the
first member, the first later non-member and so on, in ascending order.  An odd number of
them lies at or before a member. -/
def withinChanges (changes : List Nat) (codePoint : Nat) : Bool :=
  (changes.takeWhile (· ≤ codePoint)).length % 2 == 1

example : withinChanges [0x41, 0x5B] 0x40 = false ∧ withinChanges [0x41, 0x5B] 0x41 = true ∧
    withinChanges [0x41, 0x5B] 0x5A = true ∧ withinChanges [0x41, 0x5B] 0x5B = false := by decide

theorem sameIgnoringCase_iff {left right : Text} :
    sameIgnoringCase left right = true ↔ asciiLower left = asciiLower right := by
  simp [sameIgnoringCase]

theorem sameIgnoringCase_refl (text : Text) : sameIgnoringCase text text = true := by
  simp [sameIgnoringCase]

theorem sameIgnoringCase_comm (left right : Text) :
    sameIgnoringCase left right = sameIgnoringCase right left := by
  rw [Bool.eq_iff_iff, sameIgnoringCase_iff, sameIgnoringCase_iff]
  exact eq_comm

theorem precedes_irrefl (text : Text) : precedes text text = false := by
  induction text with
  | nil => rfl
  | cons c rest ih => simp [precedes, ih]

theorem precedes_trans {first second third : Text} (lower : precedes first second = true)
    (upper : precedes second third = true) : precedes first third = true := by
  induction first generalizing second third with
  | nil => cases second <;> cases third <;> simp_all [precedes]
  | cons c rest ih =>
    cases second with
    | nil => simp [precedes] at lower
    | cons d others =>
      cases third with
      | nil => simp [precedes] at upper
      | cons e remaining =>
        simp only [precedes] at lower upper ⊢
        by_cases left : c = d
        · subst left
          by_cases right : c = e
          · simp only [right, if_true] at lower upper ⊢
            exact ih lower upper
          · simpa [right] using upper
        · by_cases right : d = e
          · subst right
            simpa [left] using lower
          · simp only [left, right, if_false, decide_eq_true_eq] at lower upper
            have apart : c ≠ e := by
              rintro rfl
              omega
            simp only [apart, if_false, decide_eq_true_eq]
            omega

/-- Different texts are ordered one way or the other. -/
theorem precedes_or_precedes {left right : Text} (different : left ≠ right) :
    precedes left right = true ∨ precedes right left = true := by
  induction left generalizing right with
  | nil => cases right <;> simp_all [precedes]
  | cons c rest ih =>
    cases right with
    | nil => simp [precedes]
    | cons d others =>
      simp only [precedes]
      by_cases same : c = d
      · subst same
        have apart : rest ≠ others := fun equal => different (by rw [equal])
        simpa using ih apart
      · have other : ¬ d = c := fun equal => same equal.symm
        simp only [same, other, if_false, decide_eq_true_eq]
        have unequal : c.toNat ≠ d.toNat := fun equal => same (Char.toNat_inj.mp equal)
        omega

/-- A text comes before its continuations, so none of them comes before it. -/
theorem precedes_of_isPrefix {left right : Text} (starts : left <+: right) :
    precedes right left = false := by
  induction left generalizing right with
  | nil => cases right <;> rfl
  | cons c rest ih =>
    obtain ⟨others, rfl⟩ := starts
    simpa [precedes] using ih (List.prefix_append rest others)

theorem precedes_asymm {left right : Text} (lower : precedes left right = true) :
    precedes right left = false := by
  cases upper : precedes right left with
  | false => rfl
  | true => exact absurd (precedes_trans lower upper) (by simp [precedes_irrefl])

end Text

end Directory
