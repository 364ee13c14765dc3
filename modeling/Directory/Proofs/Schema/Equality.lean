import Directory.Proofs.Name.LetterCase
import Directory.Proofs.Schema.Matching
import Directory.Schema.ValueSyntax

namespace Directory

open Text

/-! # When values are equal

A matching rule reads a meaning from a value, or none, and takes two values for one if they have the
same meaning.  So it relates the values that have one by an equivalence.  The values of the syntax
that a rule goes with have a meaning, integers as far as a word of 128 bits holds them. -/

namespace ValueSyntax

theorem isInteger_unsigned {digits : Text} (unsigned : digits.head? ≠ some '-') :
    isInteger digits = true ↔ ∃ value, digits = natDigits value := by
  have positive : (digits == ['-', '0']) = false := by
    rw [beq_eq_false_iff_ne]
    rintro rfl
    exact unsigned rfl
  rw [exists_natDigits_iff]
  unfold isInteger
  split
  · exact absurd rfl unsigned
  · simp [positive, and_assoc]

theorem isInteger_minus {digits : Text} :
    isInteger ('-' :: digits) = true ↔ ∃ value, digits = natDigits (value + 1) := by
  have counted : (∃ value, digits = natDigits (value + 1)) ↔
      (∃ value, digits = natDigits value) ∧ digits ≠ ['0'] := by
    constructor
    · rintro ⟨value, rfl⟩
      exact ⟨⟨_, rfl⟩, fun zero => head?_natDigits_ne_zero value.succ_pos (zero ▸ rfl)⟩
    · rintro ⟨⟨value, rfl⟩, nonzero⟩
      cases value with
      | zero => exact absurd rfl nonzero
      | succ value => exact ⟨value, rfl⟩
  rw [counted, exists_natDigits_iff, isInteger]
  simp [and_assoc]

theorem accepts_integer_iff {value : Text} :
    integer.accepts value = true ↔ ∃ number, value = intDigits number := by
  show isInteger value = true ↔ _
  by_cases minus : value.head? = some '-'
  · obtain ⟨digits, rfl⟩ := List.head?_eq_some_iff.mp minus
    rw [isInteger_minus]
    constructor
    · rintro ⟨value, rfl⟩
      exact ⟨.negSucc value, rfl⟩
    · rintro ⟨number | value, written⟩
      · exact absurd (congrArg List.head? written).symm (head?_natDigits_ne (by decide) number)
      · exact ⟨value, List.tail_eq_of_cons_eq written⟩
  · rw [isInteger_unsigned minus]
    constructor
    · rintro ⟨value, rfl⟩
      exact ⟨.ofNat value, rfl⟩
    · rintro ⟨number | value, rfl⟩
      · exact ⟨number, rfl⟩
      · exact absurd rfl minus

end ValueSyntax

namespace MatchingRule

/-- What a value can mean. -/
inductive Meaning where
  | text (folded : Text)
  | number (value : Int)
  | name (path : List (Text × Text))

/-- What a value means under a rule, if the rule can read it. -/
def meaning? (rule : MatchingRule) (value : Text) : Option Meaning :=
  match rule with
  | caseIgnore => some (.text (foldValue value))
  | caseExact => some (.text value.foldBlanks)
  | integer => (integerOf? value).map .number
  | boolean => some (.text value.trim.asciiLower)
  | distinguishedName => (Dn.parse value).toOption.map fun dn => .name dn.path

/-- The syntax that a rule goes with. -/
def valueSyntax : MatchingRule → ValueSyntax
  | caseIgnore | caseExact => .directoryString
  | integer => .integer
  | boolean => .boolean
  | distinguishedName => .distinguishedName

variable {rule : MatchingRule} {left middle right value : Text}

/-- A rule equates exactly what has one meaning. -/
theorem equates_iff : rule.equates left right = true ↔
    ∃ meaning, rule.meaning? left = some meaning ∧ rule.meaning? right = some meaning := by
  cases rule with
  | caseIgnore | caseExact =>
    simp only [equates, meaning?, beq_iff_eq, Option.some.injEq, exists_eq_left',
      Meaning.text.injEq]
    exact eq_comm
  | boolean =>
    simp only [equates, meaning?, sameIgnoringCase_iff, Option.some.injEq, exists_eq_left',
      Meaning.text.injEq]
    exact eq_comm
  | integer =>
    rw [equates]
    cases readLeft : integerOf? left <;> cases readRight : integerOf? right <;>
      simp [meaning?, readLeft, readRight]
    exact eq_comm
  | distinguishedName =>
    rw [equates]
    cases readLeft : Dn.parse left <;> cases readRight : Dn.parse right <;>
      simp [meaning?, readLeft, readRight, Except.toOption, Dn.beq_iff_path]
    exact eq_comm

theorem equates_symm (same : rule.equates left right = true) : rule.equates right left = true := by
  obtain ⟨meaning, ofLeft, ofRight⟩ := equates_iff.mp same
  exact equates_iff.mpr ⟨meaning, ofRight, ofLeft⟩

theorem equates_trans (same : rule.equates left middle = true)
    (further : rule.equates middle right = true) : rule.equates left right = true := by
  obtain ⟨meaning, ofLeft, ofMiddle⟩ := equates_iff.mp same
  obtain ⟨other, again, ofRight⟩ := equates_iff.mp further
  cases ofMiddle.symm.trans again
  exact equates_iff.mpr ⟨meaning, ofLeft, ofRight⟩

/-- What is the same as something can be read, and is the same as itself. -/
theorem equates_self_of_equates (same : rule.equates left right = true) :
    rule.equates right right = true :=
  equates_trans (equates_symm same) same

theorem equates_self_iff :
    rule.equates value value = true ↔ ∃ meaning, rule.meaning? value = some meaning := by
  simp only [equates_iff, and_self]

theorem integerOf?_intDigits (number : Int) :
    integerOf? (intDigits number) = if fitsSigned 128 number then some number else none := by
  rw [integerOf?, trim_intDigits, signedValue?_intDigits, Option.filter_some]

theorem equates_intDigits_iff (left right : Int) :
    integer.equates (intDigits left) (intDigits right) = true ↔
      left = right ∧ fitsSigned 128 left = true := by
  rw [equates, integerOf?_intDigits, integerOf?_intDigits]
  by_cases fits : fitsSigned 128 left = true
  · by_cases fitsToo : fitsSigned 128 right = true
    · simp [fits, fitsToo]
    · simp only [fits, fitsToo, if_true, if_false, Bool.false_eq_true, and_true, false_iff]
      exact fun same => fitsToo (same ▸ fits)
  · simp [fits]

/-- What has the syntax of a rule has a meaning, unless it is an integer that is too large. -/
theorem equates_self_iff_of_accepts (accepted : rule.valueSyntax.accepts value = true) :
    rule.equates value value = true ↔
      ∀ number, rule = .integer → value = intDigits number → fitsSigned 128 number = true := by
  cases rule with
  | caseIgnore | caseExact | boolean =>
    simp only [equates_self_iff, meaning?, Option.some.injEq, exists_eq', true_iff]
    exact nofun
  | distinguishedName =>
    cases read : Dn.parse value with
    | error refusal =>
      rw [valueSyntax, ValueSyntax.accepts, read] at accepted
      contradiction
    | ok dn => simp [equates_self_iff, meaning?, read, Except.toOption]
  | integer =>
    obtain ⟨number, rfl⟩ := ValueSyntax.accepts_integer_iff.mp accepted
    rw [equates_intDigits_iff, and_iff_right rfl]
    constructor
    · rintro fits other _ written
      rwa [← intDigits_injective written]
    · exact fun fits => fits number rfl rfl

/-- Every rule is symmetric and transitive, and a value of the syntax that the rule goes with equals
itself unless it is an integer beyond 128 bits.  The values of the integer syntax are the numerals,
and two of them are equal if they stand for one integer, which a word of 128 bits holds. -/
theorem equates_partial_equivalence :
    (∀ rule left right, equates rule left right = true → equates rule right left = true) ∧
      (∀ rule left middle right, equates rule left middle = true →
        equates rule middle right = true → equates rule left right = true) ∧
      (∀ rule value, rule.valueSyntax.accepts value = true →
        (equates rule value value = true ↔ ∀ number, rule = .integer →
          value = intDigits number → fitsSigned 128 number = true)) ∧
      (∀ value, ValueSyntax.integer.accepts value = true ↔ ∃ number, value = intDigits number) ∧
      ∀ left right, integer.equates (intDigits left) (intDigits right) = true ↔
        left = right ∧ fitsSigned 128 left = true :=
  ⟨fun _ _ _ => equates_symm, fun _ _ _ _ => equates_trans,
    fun _ _ => equates_self_iff_of_accepts, fun _ => ValueSyntax.accepts_integer_iff,
    equates_intDigits_iff⟩

/-- Names under three spellings, and the least integer that a word of 128 bits holds. -/
theorem equates_partial_equivalence_at_bound :
    ∃ (left middle right least : Text), left = "ou=A\\, b,o=c" ∧ middle = "OU=a\\2C  B, O=C" ∧
      right = "ou=a\\, B,o=c" ∧ least = "-170141183460469231731687303715884105728" ∧
      distinguishedName.equates left middle = true ∧
      distinguishedName.equates middle right = true ∧
      distinguishedName.equates left right = true ∧
      distinguishedName.equates right left = true ∧
      ValueSyntax.integer.accepts least = true ∧ integer.equates least least = true := by
  obtain ⟨symmetric, transitive, reflexive, _, _⟩ := equates_partial_equivalence
  have first : distinguishedName.equates "ou=A\\, b,o=c" "OU=a\\2C  B, O=C" = true := by
    decide +kernel
  have second : distinguishedName.equates "OU=a\\2C  B, O=C" "ou=a\\, B,o=c" = true := by
    decide +kernel
  have both := transitive _ _ _ _ first second
  have accepted :
      ValueSyntax.integer.accepts "-170141183460469231731687303715884105728" = true := by
    decide +kernel
  have least : ofLiteral "-170141183460469231731687303715884105728" = intDigits (-2 ^ 127) := by
    decide +kernel
  refine ⟨_, _, _, _, rfl, rfl, rfl, rfl, first, second, both, symmetric _ _ _ both, accepted,
    (reflexive .integer _ accepted).mpr fun number _ written => ?_⟩
  rw [← intDigits_injective (least.symm.trans written)]
  decide +kernel

/-- The least positive integer that such a word does not hold. -/
theorem large_integer_unequal_to_itself :
    ValueSyntax.integer.accepts "170141183460469231731687303715884105728" = true ∧
      integer.equates "170141183460469231731687303715884105728"
        "170141183460469231731687303715884105728" = false := by
  decide +kernel

end MatchingRule

end Directory
