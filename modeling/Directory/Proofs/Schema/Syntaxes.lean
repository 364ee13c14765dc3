import Directory.Instant
import Directory.Proofs.Schema.Equality
import Mathlib.Data.List.Basic

namespace Directory

open Text

/-! # What the syntaxes accept

The syntaxes of numbers accept the decimal digits of the integers in their range, each integer in
one way.  A time is a date down to the hour, the minute or the second, perhaps a fraction, and a
zone; a sign alone is taken for the zone of the zero meridian as well. -/

namespace ValueSyntax

variable {value digits time zone reading fraction before behind : Text} {sign : Char} {width : Nat}

theorem fitsSigned_iff {number : Int} : fitsSigned width number = true ↔
    -2 ^ (width - 1) ≤ number ∧ number ≤ 2 ^ (width - 1) - 1 := by
  have power : (Int.ofNat (Nat.pow 2 (width - 1))) = (2 : Int) ^ (width - 1) :=
    Int.natCast_pow 2 (width - 1)
  simp only [fitsSigned, power, decide_eq_true_eq]
  omega

theorem isWord_iff : isWord width value = true ↔
    ∃ number : Int, value = intDigits number ∧
      -2 ^ (width - 1) ≤ number ∧ number ≤ 2 ^ (width - 1) - 1 := by
  simp only [← fitsSigned_iff]
  rw [isWord, Bool.and_eq_true]
  constructor
  · rintro ⟨isNumeral, fits⟩
    obtain ⟨number, rfl⟩ := accepts_integer_iff.mp isNumeral
    rw [signedValue?_intDigits, Option.any_some] at fits
    exact ⟨number, rfl, fits⟩
  · rintro ⟨number, rfl, fits⟩
    refine ⟨accepts_integer_iff.mpr ⟨number, rfl⟩, ?_⟩
    rwa [signedValue?_intDigits, Option.any_some]

/-- The integer syntax accepts the numeral of every integer, and the syntaxes of words those of the
integers that a word holds with its sign; none of them accepts anything else. -/
theorem accepts_numerals (value : Text) :
    (integer.accepts value = true ↔ ∃ number : Int, value = intDigits number) ∧
      ∀ word ∈ [(byte, 8), (short, 16), (int, 32), (long, 64)],
        (word.1.accepts value = true ↔ ∃ number : Int, value = intDigits number ∧
          -2 ^ (word.2 - 1) ≤ number ∧ number ≤ 2 ^ (word.2 - 1) - 1) := by
  refine ⟨accepts_integer_iff, fun word listed => ?_⟩
  simp only [List.mem_cons, List.not_mem_nil, or_false] at listed
  rcases listed with rfl | rfl | rfl | rfl <;> exact isWord_iff

/-- The least number of eight octets, and the one below it. -/
theorem accepts_numerals_at_bound :
    long.accepts "-9223372036854775808" = true ∧
      long.accepts "-9223372036854775809" = false ∧
      integer.accepts "-9223372036854775809" = true := by
  have least : ofLiteral "-9223372036854775808" = intDigits (-2 ^ 63) := by decide +kernel
  have below : ofLiteral "-9223372036854775809" = intDigits (-2 ^ 63 - 1) := by decide +kernel
  have listed : (long, 64) ∈ [(byte, 8), (short, 16), (int, 32), (long, 64)] := by decide
  refine ⟨((accepts_numerals _).2 _ listed).mpr ⟨_, least, by decide, by decide⟩, ?_,
    (accepts_numerals _).1.mpr ⟨_, below⟩⟩
  rw [← Bool.not_eq_true, (accepts_numerals _).2 _ listed]
  rintro ⟨number, written, lower, _⟩
  rw [← intDigits_injective (below.symm.trans written)] at lower
  exact absurd lower (by decide)

/-- Year, month, day and hour, and then the minute and the second as far as they are given. -/
inductive IsReading : Text → Prop where
  | made {year later : Text} {month day hour : Nat}
      (fourDigits : year.length = 4 ∧ year.all Char.isDigit = true)
      (inYear : 1 ≤ month ∧ month ≤ 12) (inMonth : 1 ≤ day ∧ day ≤ 31) (inDay : hour ≤ 23)
      (inHour : (later.length = 0 ∨ later.length = 2 ∨ later.length = 4) ∧
        later.all Char.isDigit = true) :
      IsReading (year ++ Instant.padded 2 month ++ Instant.padded 2 day ++
        Instant.padded 2 hour ++ later)

/-- Nothing, or digits behind a mark. -/
inductive IsFraction : Text → Prop where
  | none : IsFraction []
  | marked {mark : Char} {digits : Text} (isMark : mark = '.' ∨ mark = ',')
      (present : digits ≠ []) (only : digits.all Char.isDigit = true) : IsFraction (mark :: digits)

def IsSign (sign : Char) : Prop := sign = '+' ∨ sign = '-'

/-- `Z`, or four digits behind a sign. -/
inductive IsZone : Text → Prop where
  | zero : IsZone ['Z']
  | offset {sign : Char} {digits : Text} (isSign : IsSign sign) (four : digits.length = 4)
      (only : digits.all Char.isDigit = true) : IsZone (sign :: digits)

def IsTime (value : Text) : Prop :=
  ∃ reading fraction zone, value = reading ++ fraction ++ zone ∧
    IsReading reading ∧ IsFraction fraction ∧ IsZone zone

/-- The characters among which the last sign is looked for. -/
def isOther (c : Char) : Bool := !(c == '+' || c == '-')

theorem isOther_iff {c : Char} : isOther c = true ↔ ¬ IsSign c := by
  simp [isOther, IsSign]

theorem eq_append_of_cutLastSign? (cut : cutLastSign? value = some (before, behind)) :
    ∃ sign, IsSign sign ∧ value = before ++ sign :: behind := by
  have whole : value.reverse.takeWhile isOther ++ value.reverse.dropWhile isOther = value.reverse :=
    List.takeWhile_append_dropWhile
  have first := List.head?_dropWhile_not isOther value.reverse
  simp only [cutLastSign?] at cut
  split at cut
  · contradiction
  · next sign earlier found =>
    cases cut
    have dropped : value.reverse.dropWhile isOther = sign :: earlier := found
    rw [dropped] at whole first
    refine ⟨sign, ?_, ?_⟩
    · by_contra other
      rw [List.head?_cons] at first
      exact Bool.false_ne_true (first.symm.trans (isOther_iff.mpr other))
    · rw [← List.reverse_inj, List.reverse_append, List.reverse_cons, List.append_assoc,
        List.reverse_reverse, List.reverse_reverse]
      exact whole.symm

theorem cutLastSign?_append (isSign : IsSign sign) (unsigned : ∀ c ∈ behind, ¬ IsSign c) :
    cutLastSign? (before ++ sign :: behind) = some (before, behind) := by
  have passes : ∀ c ∈ behind.reverse, isOther c = true :=
    fun c member => isOther_iff.mpr (unsigned c (List.mem_reverse.mp member))
  have stops : ¬ isOther sign = true := fun other => isOther_iff.mp other isSign
  have reversed : (before ++ sign :: behind).reverse = behind.reverse ++ sign :: before.reverse := by
    simp
  have dropped : (before ++ sign :: behind).reverse.dropWhile isOther = sign :: before.reverse := by
    rw [reversed, List.dropWhile_append_of_pos passes, List.dropWhile_cons_of_neg stops]
  have taken : (before ++ sign :: behind).reverse.takeWhile isOther = behind.reverse := by
    rw [reversed, List.takeWhile_append_of_pos passes, List.takeWhile_cons_of_neg stops,
      List.append_nil]
  unfold isOther at dropped taken
  simp only [cutLastSign?, dropped, taken, List.reverse_reverse]

theorem not_isSign_of_isDigit {c : Char} (digit : c.isDigit = true) : ¬ IsSign c := by
  rintro (rfl | rfl) <;> exact absurd digit (by decide)

theorem splitZone?_zero (time : Text) : splitZone? (time ++ ['Z']) = some (time, []) := by
  simp [splitZone?]

theorem splitZone?_offset (isSign : IsSign sign) (only : digits.all Char.isDigit = true) :
    splitZone? (time ++ sign :: digits) = some (time, digits) := by
  have unsigned : ∀ c ∈ digits, ¬ IsSign c := fun c member =>
    not_isSign_of_isDigit (List.all_eq_true.mp only c member)
  have unclosed : (time ++ sign :: digits).getLast? ≠ some 'Z' := by
    intro closed
    rw [List.getLast?_append_cons] at closed
    rcases List.mem_cons.mp (List.mem_of_mem_getLast? closed) with rfl | member
    · exact absurd isSign (by unfold IsSign; decide)
    · exact absurd (List.all_eq_true.mp only 'Z' member) (by decide)
  rw [← cutLastSign?_append isSign unsigned, splitZone?]
  split
  · contradiction
  · rfl

theorem padded_digitsValue (two : digits.length = 2) (only : digits.all Char.isDigit = true) :
    Instant.padded 2 (digitsValue digits) = digits := by
  have all : ∀ high < 10, ∀ low < 10, Instant.padded 2
      (digitsValue [Nat.digitChar high, Nat.digitChar low]) =
        [Nat.digitChar high, Nat.digitChar low] := by
    decide +kernel
  match digits, two with
  | [high, low], _ =>
    simp only [List.all_cons, List.all_nil, Bool.and_true, Bool.and_eq_true] at only
    have highRange := isDigit_iff.mp only.1
    have lowRange := isDigit_iff.mp only.2
    have written := all (high.toNat - 48) (by omega) (low.toNat - 48) (by omega)
    rwa [digitChar_eq only.1, digitChar_eq only.2] at written

theorem padded_two (number : Nat) (small : number < 100) :
    (Instant.padded 2 number).length = 2 ∧ (Instant.padded 2 number).all Char.isDigit = true ∧
      digitsValue (Instant.padded 2 number) = number := by
  have all : ∀ number < 100, (Instant.padded 2 number).length = 2 ∧
      (Instant.padded 2 number).all Char.isDigit = true ∧
        digitsValue (Instant.padded 2 number) = number := by
    decide +kernel
  exact all number small

theorem isReading_of_isClockReading (reads : isClockReading digits = true) : IsReading digits := by
  simp only [isClockReading, Bool.and_eq_true, Bool.or_eq_true, beq_iff_eq,
    decide_eq_true_eq] at reads
  obtain ⟨⟨⟨⟨lengths, only⟩, inYear⟩, inMonth⟩, inDay⟩ := reads
  have onlyIn {part : Text} (inside : ∀ c ∈ part, c ∈ digits) : part.all Char.isDigit = true :=
    List.all_eq_true.mpr fun c member => List.all_eq_true.mp only c (inside c member)
  have field (start : Nat) (within : start + 2 ≤ digits.length) :
      Instant.padded 2 (digitsValue ((digits.drop start).take 2)) = (digits.drop start).take 2 :=
    padded_digitsValue (by simp; omega)
      (onlyIn fun _ member => List.mem_of_mem_drop (List.mem_of_mem_take member))
  have joined (start : Nat) :
      (digits.drop start).take 2 ++ digits.drop (start + 2) = digits.drop start := by
    rw [← List.drop_drop, List.take_append_drop]
  have parts : digits = digits.take 4 ++ (digits.drop 4).take 2 ++ (digits.drop 6).take 2 ++
      (digits.drop 8).take 2 ++ digits.drop 10 := by
    rw [List.append_assoc, joined 8, List.append_assoc, joined 6, List.append_assoc, joined 4,
      List.take_append_drop]
  rw [← field 4 (by omega), ← field 6 (by omega), ← field 8 (by omega)] at parts
  rw [parts]
  exact .made ⟨by simp; omega, onlyIn fun _ member => List.mem_of_mem_take member⟩ inYear inMonth
    inDay ⟨by simp; omega, onlyIn fun _ member => List.mem_of_mem_drop member⟩

theorem IsReading.isClockReading (isReading : IsReading reading) :
    isClockReading reading = true ∧ reading.all Char.isDigit = true := by
  obtain @⟨year, later, month, day, hour, ⟨four, onlyYear⟩, inYear, inMonth, inDay, inHour,
    onlyLater⟩ := isReading
  obtain ⟨monthTwo, monthOnly, monthValue⟩ := padded_two month (by omega)
  obtain ⟨dayTwo, dayOnly, dayValue⟩ := padded_two day (by omega)
  obtain ⟨hourTwo, hourOnly, hourValue⟩ := padded_two hour (by omega)
  have onlyDigits : (year ++ Instant.padded 2 month ++ Instant.padded 2 day ++
      Instant.padded 2 hour ++ later).all Char.isDigit = true := by
    simp only [List.all_append, onlyYear, monthOnly, dayOnly, hourOnly, onlyLater, Bool.and_self]
  have field {before part : Text} {start : Nat} (starts : before.length = start)
      (two : part.length = 2) (behind : Text) :
      ((before ++ part ++ behind).drop start).take 2 = part := by
    rw [List.append_assoc, List.drop_left' starts, List.take_left' two]
  have beforeDay : (year ++ Instant.padded 2 month).length = 6 := by
    rw [List.length_append, four, monthTwo]
  have beforeHour : (year ++ Instant.padded 2 month ++ Instant.padded 2 day).length = 8 := by
    rw [List.length_append, beforeDay, dayTwo]
  have ofMonth := field four monthTwo (Instant.padded 2 day ++ Instant.padded 2 hour ++ later)
  have ofDay := field beforeDay dayTwo (Instant.padded 2 hour ++ later)
  have ofHour := field beforeHour hourTwo later
  simp only [List.append_assoc] at ofMonth ofDay ofHour onlyDigits ⊢
  refine ⟨?_, onlyDigits⟩
  simp only [ValueSyntax.isClockReading, ofMonth, ofDay, ofHour, monthValue, dayValue, hourValue,
    onlyDigits]
  simp
  omega

/-- The characters of a reading of the clock, which ends at the first mark. -/
def isUnmarked (c : Char) : Bool := !(c == '.' || c == ',')

theorem isUnmarked_of_isDigit {c : Char} (digit : c.isDigit = true) : isUnmarked c = true := by
  rw [isUnmarked, Bool.not_eq_true', ← Bool.not_eq_true, Bool.or_eq_true, beq_iff_eq, beq_iff_eq]
  rintro (rfl | rfl) <;> exact absurd digit (by decide)

theorem isFraction_iff : IsFraction (time.dropWhile isUnmarked) ↔
    (match time.dropWhile isUnmarked with
      | [] => true
      | _ :: digits => !digits.isEmpty && digits.all Char.isDigit) = true := by
  have first := List.head?_dropWhile_not isUnmarked time
  cases found : time.dropWhile isUnmarked with
  | nil => exact iff_of_true .none rfl
  | cons mark digits =>
    rw [found, List.head?_cons] at first
    have isMark : mark = '.' ∨ mark = ',' := by
      simpa [isUnmarked, Decidable.or_iff_not_imp_left] using first
    simp only [Bool.and_eq_true, Bool.not_eq_true', List.isEmpty_eq_false_iff]
    exact ⟨fun | .marked _ present only => ⟨present, only⟩,
      fun ⟨present, only⟩ => .marked isMark present only⟩

theorem unmarked_append (only : reading.all Char.isDigit = true) (isFraction : IsFraction fraction) :
    (reading ++ fraction).takeWhile isUnmarked = reading ∧
      (reading ++ fraction).dropWhile isUnmarked = fraction := by
  have passes : ∀ c ∈ reading, isUnmarked c = true :=
    fun c member => isUnmarked_of_isDigit (List.all_eq_true.mp only c member)
  rw [List.takeWhile_append_of_pos passes, List.dropWhile_append_of_pos passes]
  cases isFraction with
  | none => exact ⟨List.append_nil reading, rfl⟩
  | marked isMark present onlyDigits =>
    rcases isMark with rfl | rfl <;> exact ⟨List.append_nil reading, rfl⟩

/-- The digits of a zone, none for `Z`. -/
def AreOffset (digits : Text) : Prop :=
  digits = [] ∨ digits.length = 4 ∧ digits.all Char.isDigit = true

theorem isGeneralizedTime_iff (split : splitZone? value = some (time, digits)) :
    isGeneralizedTime value = true ↔ AreOffset digits ∧
      IsReading (time.takeWhile isUnmarked) ∧ IsFraction (time.dropWhile isUnmarked) := by
  have tests : isGeneralizedTime value =
      ((digits.isEmpty || (digits.length == 4 && digits.all Char.isDigit)) &&
        isClockReading (time.takeWhile isUnmarked) && match time.dropWhile isUnmarked with
          | [] => true
          | _ :: digits => !digits.isEmpty && digits.all Char.isDigit) := by
    rw [isGeneralizedTime, split]
    rfl
  have reads : isClockReading (time.takeWhile isUnmarked) = true ↔
      IsReading (time.takeWhile isUnmarked) :=
    ⟨isReading_of_isClockReading, fun isReading => isReading.isClockReading.1⟩
  rw [tests, Bool.and_eq_true, Bool.and_eq_true, reads, ← isFraction_iff, and_assoc]
  simp [AreOffset]

theorem exists_zone_of_splitZone? (split : splitZone? value = some (time, digits)) :
    value = time ++ ['Z'] ∧ digits = [] ∨ ∃ sign, IsSign sign ∧ value = time ++ sign :: digits := by
  by_cases closed : value.getLast? = some 'Z'
  · rw [splitZone?, closed] at split
    cases split
    exact .inl ⟨(List.dropLast_append_getLast? 'Z' closed).symm, rfl⟩
  · refine .inr (eq_append_of_cutLastSign? ?_)
    rw [← split, splitZone?]
    split
    · contradiction
    · rfl

theorem IsTime.accepted (isTime : IsTime value) : generalizedTime.accepts value = true := by
  obtain ⟨reading, fraction, zone, rfl, isReading, isFraction, isZone⟩ := isTime
  obtain ⟨digits, split, offset⟩ : ∃ digits,
      splitZone? (reading ++ fraction ++ zone) = some (reading ++ fraction, digits) ∧
        AreOffset digits := by
    cases isZone with
    | zero => exact ⟨[], splitZone?_zero _, .inl rfl⟩
    | offset isSign four only => exact ⟨_, splitZone?_offset isSign only, .inr ⟨four, only⟩⟩
  obtain ⟨taken, dropped⟩ := unmarked_append isReading.isClockReading.2 isFraction
  refine (isGeneralizedTime_iff split).mpr ⟨offset, ?_, ?_⟩
  · rwa [taken]
  · rwa [dropped]

/-- A sign alone has the meaning of `Z`. -/
theorem accepts_signed (isSign : IsSign sign) (time : Text) :
    generalizedTime.accepts (time ++ [sign]) = generalizedTime.accepts (time ++ ['Z']) := by
  rw [Bool.eq_iff_iff]
  exact (isGeneralizedTime_iff (splitZone?_offset isSign rfl)).trans
    (isGeneralizedTime_iff (splitZone?_zero time)).symm

theorem isTime_cases_of_accepted (accepted : generalizedTime.accepts value = true) :
    IsTime value ∨
      ∃ time sign, IsSign sign ∧ value = time ++ [sign] ∧ IsTime (time ++ ['Z']) := by
  cases split : splitZone? value with
  | none => simp [accepts, isGeneralizedTime, split] at accepted
  | some parts =>
    obtain ⟨time, digits⟩ := parts
    obtain ⟨offset, isReading, isFraction⟩ := (isGeneralizedTime_iff split).mp accepted
    have closed {zone : Text} (isZone : IsZone zone) : IsTime (time ++ zone) :=
      ⟨_, _, zone, by rw [List.takeWhile_append_dropWhile], isReading, isFraction, isZone⟩
    rcases exists_zone_of_splitZone? split with ⟨rfl, _⟩ | ⟨sign, isSign, rfl⟩
    · exact .inl (closed .zero)
    · rcases offset with rfl | ⟨four, only⟩
      · exact .inr ⟨time, sign, isSign, rfl, closed .zero⟩
      · exact .inl (closed (.offset isSign four only))

/-- All times are accepted, and what becomes a time when `Z` is put in the place of a sign at its
end; nothing else is. -/
theorem accepts_times (value : Text) : generalizedTime.accepts value = true ↔
    IsTime value ∨
      ∃ time sign, IsSign sign ∧ value = time ++ [sign] ∧ IsTime (time ++ ['Z']) := by
  refine ⟨isTime_cases_of_accepted, ?_⟩
  rintro (isTime | ⟨time, sign, isSign, rfl, isTime⟩)
  · exact isTime.accepted
  · rw [accepts_signed isSign]
    exact isTime.accepted

theorem IsTime.not_isSign (isTime : IsTime value) : ∀ c ∈ value.getLast?, ¬ IsSign c := by
  obtain ⟨reading, fraction, zone, rfl, _, _, isZone⟩ := isTime
  intro c last
  cases isZone with
  | zero =>
    rw [List.getLast?_concat] at last
    cases last
    unfold IsSign
    decide
  | @offset sign digits isSign four only =>
    have present : digits ≠ [] := by
      rintro rfl
      contradiction
    rw [List.getLast?_append_cons, List.getLast?_cons_of_ne_nil present] at last
    exact not_isSign_of_isDigit (List.all_eq_true.mp only c (List.mem_of_mem_getLast? last))

/-- An hour in a zone of which only the sign is there. -/
theorem bare_sign_accepted :
    generalizedTime.accepts "2008101812+" = true ∧ ¬ IsTime "2008101812+" :=
  ⟨by decide +kernel, fun isTime => isTime.not_isSign '+' (by decide +kernel) (.inl rfl)⟩

theorem IsSign.isLower (isSign : IsSign sign) : sign.isLower = false := by
  rcases isSign with rfl | rfl <;> decide

theorem IsTime.isLower (isTime : IsTime value) : ∀ c ∈ value, c.isLower = false := by
  obtain ⟨reading, fraction, zone, rfl, isReading, isFraction, isZone⟩ := isTime
  rw [List.forall_mem_append, List.forall_mem_append]
  refine ⟨⟨isLower_of_digits isReading.isClockReading.2, ?_⟩, ?_⟩
  · cases isFraction with
    | none => exact List.forall_mem_nil _
    | marked isMark present only =>
      refine List.forall_mem_cons.mpr ⟨?_, isLower_of_digits only⟩
      rcases isMark with rfl | rfl <;> decide
  · cases isZone with
    | zero => exact List.forall_mem_singleton.mpr rfl
    | offset isSign four only =>
      exact List.forall_mem_cons.mpr ⟨isSign.isLower, isLower_of_digits only⟩

/-- A time has one letter at most, the capital `Z`. -/
theorem isLower_of_accepted (accepted : generalizedTime.accepts value = true) :
    ∀ c ∈ value, c.isLower = false := by
  rcases isTime_cases_of_accepted accepted with isTime | ⟨time, sign, isSign, rfl, isTime⟩
  · exact isTime.isLower
  · have before := (List.forall_mem_append.mp isTime.isLower).1
    exact List.forall_mem_append.mpr ⟨before, List.forall_mem_singleton.mpr isSign.isLower⟩

end ValueSyntax

namespace Instant

theorem isLower_padded (width value : Nat) : ∀ c ∈ padded width value, c.isLower = false := by
  refine isLower_of_digits ?_
  simp only [padded, List.all_append, all_isDigit_natDigits, Bool.and_true, List.all_replicate]
  split <;> rfl

theorem isLower_yearText (year : Int) : ∀ c ∈ yearText year, c.isLower = false := by
  have digits := isLower_padded 4 year.natAbs
  simp only [yearText]
  split
  · exact List.forall_mem_cons.mpr ⟨by decide, digits⟩
  · split
    · exact digits
    · exact List.forall_mem_cons.mpr ⟨by decide, digits⟩

theorem isLower_generalizedTime (instant : Instant) :
    ∀ c ∈ instant.generalizedTime, c.isLower = false := by
  simp only [generalizedTime, List.forall_mem_append]
  exact ⟨⟨⟨⟨⟨⟨isLower_yearText _, isLower_padded 2 _⟩, isLower_padded 2 _⟩, isLower_padded 2 _⟩,
    isLower_padded 2 _⟩, isLower_padded 2 _⟩, List.forall_mem_singleton.mpr rfl⟩

end Instant

end Directory
