import Directory.Proofs.Text.Characters
import Directory.Text.Digits
import Mathlib.Data.Nat.Digits.Defs

namespace Directory.Text

/-! # Numbers in decimal digits

Every integer has one numeral, without a zero in front that does not count.  Reading the numeral
gives the integer back, and digits without such a zero are the numeral of what they read as. -/

variable {text digits : Text} {value : Nat}

theorem isDigit_iff {c : Char} : c.isDigit = true ↔ 48 ≤ c.toNat ∧ c.toNat ≤ 57 := by
  simp only [Char.isDigit, Bool.and_eq_true, decide_eq_true_eq, ge_iff_le, UInt32.le_iff_toNat_le]
  exact Iff.rfl

theorem isDigit_toLower (c : Char) : c.toLower.isDigit = c.isDigit := by
  rw [Bool.eq_iff_iff, isDigit_iff, isDigit_iff, toNat_toLower]
  split <;> omega

theorem asciiLower_of_digits (digits : text.all Char.isDigit = true) : asciiLower text = text := by
  have kept : ∀ c ∈ text, c.toLower = c := by
    intro c member
    have range := isDigit_iff.mp (List.all_eq_true.mp digits c member)
    rw [← Char.toNat_inj, toNat_toLower, if_neg (by omega)]
  rw [asciiLower, List.map_congr_left kept, List.map_id']

theorem isLower_of_digits (digits : text.all Char.isDigit = true) :
    ∀ c ∈ text, c.isLower = false := by
  intro c member
  have range := isDigit_iff.mp (List.all_eq_true.mp digits c member)
  rw [isLower_eq_false_iff]
  omega

theorem all_isDigit_asciiLower (text : Text) :
    (asciiLower text).all Char.isDigit = text.all Char.isDigit := by
  rw [asciiLower, List.all_map]
  exact congrArg text.all (funext isDigit_toLower)

def magnitude? (digits : Text) : Option Nat :=
  if digits.isEmpty || !digits.all Char.isDigit then none else some (digitsValue digits)

theorem magnitude?_asciiLower (digits : Text) :
    magnitude? (asciiLower digits) = magnitude? digits := by
  rw [magnitude?, magnitude?, all_isDigit_asciiLower]
  cases only : digits.all Char.isDigit with
  | true => rw [asciiLower_of_digits only]
  | false => rw [Bool.not_false, Bool.or_true, if_pos rfl, Bool.or_true, if_pos rfl]

theorem signedValue?_unsigned (minus : text.head? ≠ some '-') (plus : text.head? ≠ some '+') :
    signedValue? text = (magnitude? text).map Int.ofNat := by
  simp only [signedValue?]
  split
  · exact absurd rfl minus
  · exact absurd rfl plus
  · rfl

theorem signedValue?_asciiLower (text : Text) :
    signedValue? (asciiLower text) = signedValue? text := by
  cases text with
  | nil => rfl
  | cons c rest =>
    by_cases minus : c = '-'
    · subst minus
      exact congrArg (Option.map fun magnitude => -Int.ofNat magnitude) (magnitude?_asciiLower rest)
    · by_cases plus : c = '+'
      · subst plus
        exact congrArg (Option.map Int.ofNat) (magnitude?_asciiLower rest)
      · have stillMinus := mt (toLower_eq_iff (by rfl)).mp minus
        have stillPlus := mt (toLower_eq_iff (by rfl)).mp plus
        rw [signedValue?_unsigned (by simpa [asciiLower] using stillMinus)
            (by simpa [asciiLower] using stillPlus),
          signedValue?_unsigned (by simpa using minus) (by simpa using plus),
          magnitude?_asciiLower]

/-- The decimal digits of an integer, behind a minus sign if it is negative. -/
def intDigits : Int → Text
  | .ofNat value => natDigits value
  | .negSucc value => '-' :: natDigits (value + 1)

theorem digitsValue_eq (digits : Text) : digitsValue digits = Nat.ofDigitChars 10 digits 0 := by
  simp only [digitsValue, Nat.ofDigitChars, Nat.mul_comm]

theorem all_isDigit_natDigits (value : Nat) : (natDigits value).all Char.isDigit = true :=
  List.all_eq_true.mpr fun _ member => Nat.isDigit_of_mem_toDigits (by decide) (by decide) member

theorem natDigits_ne_nil (value : Nat) : natDigits value ≠ [] := Nat.toDigits_ne_nil

theorem head?_natDigits_ne {mark : Char} (other : mark.isDigit = false) (value : Nat) :
    (natDigits value).head? ≠ some mark := by
  intro first
  have digit := List.all_eq_true.mp (all_isDigit_natDigits value) mark
    (List.mem_of_mem_head? first)
  rw [digit] at other
  contradiction

theorem magnitude?_natDigits (value : Nat) : magnitude? (natDigits value) = some value := by
  have present : (natDigits value).isEmpty = false := by simp [natDigits_ne_nil]
  rw [magnitude?, all_isDigit_natDigits, present, digitsValue_eq, natDigits,
    Nat.ofDigitChars_ten_toDigits]
  rfl

theorem digitChar_eq {c : Char} (digit : c.isDigit = true) : Nat.digitChar (c.toNat - 48) = c := by
  have range := isDigit_iff.mp digit
  rw [← Char.toNat_inj, Nat.toNat_digitChar_of_lt_ten (by omega)]
  omega

/-- Further digits behind a numeral that does not stand for zero make another one. -/
theorem natDigits_append (positive : 0 < value) (only : digits.all Char.isDigit = true) :
    natDigits value ++ digits = natDigits (Nat.ofDigitChars 10 digits value) := by
  induction digits generalizing value with
  | nil => rw [List.append_nil, Nat.ofDigitChars_nil]
  | cons c rest ih =>
    obtain ⟨digit, others⟩ := Bool.and_eq_true_iff.mp (List.all_cons ▸ only)
    have range := isDigit_iff.mp digit
    have last : natDigits value ++ [c] = natDigits (10 * value + (c.toNat - 48)) := by
      rw [← digitChar_eq digit, ← Nat.toDigits_of_lt_base (b := 10) (by omega), natDigits,
        Nat.toDigits_append_toDigits (by decide) positive (by omega), digitChar_eq digit, natDigits]
    rw [Nat.ofDigitChars_cons, ← ih (by omega) others, List.append_cons, last]
    rfl

/-- Digits of which the first is not a zero in front of others are a numeral. -/
theorem natDigits_digitsValue (present : digits ≠ []) (only : digits.all Char.isDigit = true)
    (shortest : digits.length ≤ 1 ∨ digits.head? ≠ some '0') :
    natDigits (digitsValue digits) = digits := by
  obtain ⟨c, rest, rfl⟩ := List.exists_cons_of_ne_nil present
  obtain ⟨digit, others⟩ := Bool.and_eq_true_iff.mp (List.all_cons ▸ only)
  have range := isDigit_iff.mp digit
  have first : natDigits (c.toNat - 48) = [c] := by
    rw [natDigits, Nat.toDigits_of_lt_base (by omega), digitChar_eq digit]
  have value : digitsValue (c :: rest) = Nat.ofDigitChars 10 rest (c.toNat - 48) := by
    rw [digitsValue_eq, Nat.ofDigitChars_cons, Nat.mul_zero, Nat.zero_add]
    rfl
  cases rest with
  | nil => rw [value, Nat.ofDigitChars_nil, first]
  | cons next later =>
    have nonzero : c ≠ '0' := by simpa using shortest
    have positive : c.toNat ≠ 48 := fun zero => nonzero (Char.toNat_inj.mp zero)
    rw [value, ← natDigits_append (by omega) others, first]
    rfl

theorem head?_natDigits_ne_zero (positive : 0 < value) : (natDigits value).head? ≠ some '0' := by
  induction value using Nat.strongRecOn with
  | ind value ih =>
    by_cases single : value < 10
    · rw [natDigits, Nat.toDigits_of_lt_base single, List.head?_cons, Ne, Option.some.injEq,
        ← Char.toNat_inj, Nat.toNat_digitChar_of_lt_ten single]
      intro zero
      have code : '0'.toNat = 48 := rfl
      omega
    · have before := ih (value / 10) (by omega) (by omega)
      rw [natDigits, Nat.toDigits_of_base_le (by decide) (by omega), ← natDigits, List.head?_append]
      cases first : (natDigits (value / 10)).head? with
      | none => exact absurd (List.head?_eq_none_iff.mp first) (natDigits_ne_nil _)
      | some c => rwa [first] at before

/-- The numerals are the texts of digits in which no zero stands in front of others. -/
theorem exists_natDigits_iff : (∃ value, digits = natDigits value) ↔
    digits ≠ [] ∧ digits.all Char.isDigit = true ∧
      (digits.length ≤ 1 ∨ digits.head? ≠ some '0') := by
  constructor
  · rintro ⟨value, rfl⟩
    refine ⟨natDigits_ne_nil value, all_isDigit_natDigits value, ?_⟩
    cases value with
    | zero => exact .inl (by decide)
    | succ value => exact .inr (head?_natDigits_ne_zero value.succ_pos)
  · rintro ⟨present, only, shortest⟩
    exact ⟨digitsValue digits, (natDigits_digitsValue present only shortest).symm⟩

theorem signedValue?_minus (digits : Text) :
    signedValue? ('-' :: digits) = (magnitude? digits).map fun value => -Int.ofNat value :=
  rfl

theorem signedValue?_intDigits (number : Int) : signedValue? (intDigits number) = some number := by
  cases number with
  | ofNat value =>
    rw [intDigits, signedValue?_unsigned (head?_natDigits_ne (by decide) value)
      (head?_natDigits_ne (by decide) value), magnitude?_natDigits, Option.map_some]
  | negSucc value =>
    rw [intDigits, signedValue?_minus, magnitude?_natDigits, Option.map_some]
    rfl

theorem intDigits_injective {left right : Int} (same : intDigits left = intDigits right) :
    left = right := by
  have read := congrArg signedValue? same
  rwa [signedValue?_intDigits, signedValue?_intDigits, Option.some.injEq] at read

theorem trim_intDigits (number : Int) : (intDigits number).trim = intDigits number := by
  have solid (value : Nat) : ∀ c ∈ natDigits value, isBlank c = false := by
    intro c member
    have digit := List.all_eq_true.mp (all_isDigit_natDigits value) c member
    by_contra blank
    have unlettered := isAlphanum_of_isBlank (Bool.not_eq_false _ ▸ blank)
    simp [Char.isAlphanum, digit] at unlettered
  refine trim_eq_self ?_
  cases number with
  | ofNat value => exact solid value
  | negSucc value => exact List.forall_mem_cons.mpr ⟨by decide, solid (value + 1)⟩

end Directory.Text
