import Directory.Name.Rdn

namespace Directory.Text

/-! # Characters by their code points

Letters, digits and letter case are ranges of code points, so that facts about single
characters are facts about numbers. -/

variable {c : Char}

theorem isAlpha_iff : c.isAlpha = true ↔
    65 ≤ c.toNat ∧ c.toNat ≤ 90 ∨ 97 ≤ c.toNat ∧ c.toNat ≤ 122 := by
  show (decide (c.val ≥ 65 ∧ c.val ≤ 90) || (decide (c.val ≥ 97) && decide (c.val ≤ 122))) = true
    ↔ _
  simp only [Bool.or_eq_true, Bool.and_eq_true, decide_eq_true_eq, ge_iff_le,
    UInt32.le_iff_toNat_le]
  exact Iff.rfl

theorem isAlphanum_iff : c.isAlphanum = true ↔
    (65 ≤ c.toNat ∧ c.toNat ≤ 90 ∨ 97 ≤ c.toNat ∧ c.toNat ≤ 122) ∨
      48 ≤ c.toNat ∧ c.toNat ≤ 57 := by
  simp only [Char.isAlphanum, Bool.or_eq_true, isAlpha_iff, Char.isDigit, Bool.and_eq_true,
    decide_eq_true_eq, ge_iff_le, UInt32.le_iff_toNat_le]
  exact Iff.rfl

theorem isLower_eq_false_iff : c.isLower = false ↔ c.toNat < 97 ∨ 122 < c.toNat := by
  delta Char.isLower
  rw [← Bool.not_eq_true, Bool.and_eq_true, decide_eq_true_eq, decide_eq_true_eq, ge_iff_le,
    UInt32.le_iff_toNat_le, UInt32.le_iff_toNat_le]
  show ¬ (97 ≤ c.toNat ∧ c.toNat ≤ 122) ↔ _
  omega

theorem toNat_toLower (c : Char) :
    c.toLower.toNat = if 65 ≤ c.toNat ∧ c.toNat ≤ 90 then c.toNat + 32 else c.toNat := by
  delta Char.toLower
  simp only [ge_iff_le, UInt32.le_iff_toNat_le]
  split
  · next capital =>
    have bounds : 65 ≤ c.toNat ∧ c.toNat ≤ 90 := capital
    have shifted : (c.val + 32).toNat = (c.toNat + 32) % 2 ^ 32 := UInt32.toNat_add c.val 32
    rw [if_pos bounds]
    show (c.val + 32).toNat = c.toNat + 32
    omega
  · next other =>
    exact (if_neg other).symm

/-- Small letters for capitals never make a character that is no letter. -/
theorem toLower_eq_iff {mark : Char} (nonletter : mark.isAlpha = false) :
    c.toLower = mark ↔ c = mark := by
  have range := mt isAlpha_iff.mpr (Bool.not_eq_true _ ▸ nonletter)
  rw [← Char.toNat_inj, ← Char.toNat_inj, toNat_toLower]
  split <;> omega

theorem mem_asciiLower_iff {mark : Char} (nonletter : mark.isAlpha = false) {text : Text} :
    mark ∈ asciiLower text ↔ mark ∈ text := by
  simp only [asciiLower, List.mem_map, toLower_eq_iff nonletter]
  exact ⟨fun ⟨_, member, same⟩ => same ▸ member, fun member => ⟨mark, member, rfl⟩⟩

theorem asciiLower_asciiLower (text : Text) : asciiLower (asciiLower text) = asciiLower text := by
  have settled (c : Char) : c.toLower.toLower = c.toLower := by
    rw [← Char.toNat_inj, toNat_toLower c.toLower, toNat_toLower c]
    grind
  simp [asciiLower, settled]

/-- Texts without small letters that are the same but for letter case are the same. -/
theorem eq_of_sameIgnoringCase {left right : Text} (leftLarge : ∀ c ∈ left, c.isLower = false)
    (rightLarge : ∀ c ∈ right, c.isLower = false) (same : sameIgnoringCase left right = true) :
    left = right := by
  rw [sameIgnoringCase_iff] at same
  induction left generalizing right with
  | nil => exact (List.map_eq_nil_iff.mp same.symm).symm
  | cons c rest ih =>
    obtain ⟨d, others, rfl, sameFirst, sameRest⟩ := List.map_eq_cons_iff.mp same.symm
    obtain ⟨large, restLarge⟩ := List.forall_mem_cons.mp leftLarge
    obtain ⟨otherLarge, othersLarge⟩ := List.forall_mem_cons.mp rightLarge
    have first : c = d := by
      rw [isLower_eq_false_iff] at large otherLarge
      rw [← Char.toNat_inj, toNat_toLower, toNat_toLower] at sameFirst
      rw [← Char.toNat_inj]
      grind
    rw [first, ih restLarge othersLarge sameRest.symm]

theorem hexDigit?_eq_none (other : c.isAlphanum = false) : hexDigit? c = none := by
  have range := mt isAlphanum_iff.mpr (Bool.not_eq_true _ ▸ other)
  have unranged (low high : Char) (within : low ≤ c ∧ c ≤ high) :
      low.toNat ≤ c.toNat ∧ c.toNat ≤ high.toNat := within
  simp only [hexDigit?]
  rw [if_neg, if_neg, if_neg]
  · intro within
    have bounds : 65 ≤ c.toNat ∧ c.toNat ≤ 70 := unranged 'A' 'F' within
    omega
  · intro within
    have bounds : 97 ≤ c.toNat ∧ c.toNat ≤ 102 := unranged 'a' 'f' within
    omega
  · intro within
    have bounds : 48 ≤ c.toNat ∧ c.toNat ≤ 57 := unranged '0' '9' within
    omega

theorem isAlphanum_of_isBlank (blank : isBlank c = true) : c.isAlphanum = false := by
  rw [← Bool.not_eq_true, isAlphanum_iff]
  simp only [isBlank] at blank
  split at blank <;>
    simp only [Bool.or_eq_true, Bool.and_eq_true, beq_iff_eq, decide_eq_true_eq] at blank <;> omega

theorem isAlpha_of_isBlank (blank : isBlank c = true) : c.isAlpha = false :=
  (Bool.or_eq_false_iff.mp (isAlphanum_of_isBlank blank)).1

theorem mem_trim {text : Text} (member : c ∈ text) (solid : isBlank c = false) :
    c ∈ text.trim := by
  have kept {part : Text} (inside : c ∈ part) : c ∈ part.dropWhile isBlank := by
    have divided := part.takeWhile_append_dropWhile (p := isBlank) ▸ inside
    refine (List.mem_append.mp divided).resolve_left fun early => ?_
    have blank := List.all_eq_true.mp List.all_takeWhile c early
    simp [blank] at solid
  rw [trim, trimEnd, List.mem_reverse]
  exact kept (List.mem_reverse.mpr (kept member))

theorem trim_eq_self {text : Text} (solid : ∀ c ∈ text, isBlank c = false) : text.trim = text := by
  have kept : ∀ {part : Text}, (∀ c ∈ part, isBlank c = false) → part.dropWhile isBlank = part := by
    intro part free
    cases part with
    | nil => rfl
    | cons first rest =>
      exact List.dropWhile_cons_of_neg (by simp [free first List.mem_cons_self])
  rw [trim, trimStart, kept solid, trimEnd, kept (by simpa using solid), List.reverse_reverse]

theorem isBlank_toLower (c : Char) : isBlank c.toLower = isBlank c := by
  have number := toNat_toLower c
  split at number
  · next capital =>
    simp only [isBlank, number]
    rw [if_pos (by omega), if_pos (by omega)]
    grind
  · rw [isBlank, isBlank, number]

/-- Small letters for capitals leave blanks where they are. -/
theorem trim_asciiLower (text : Text) : (asciiLower text).trim = asciiLower text.trim := by
  have lowered (part : Text) :
      (asciiLower part).dropWhile isBlank = asciiLower (part.dropWhile isBlank) := by
    have sameTest : isBlank ∘ Char.toLower = isBlank := funext isBlank_toLower
    rw [asciiLower, List.dropWhile_map, sameTest, asciiLower]
  have reversed (part : Text) : (asciiLower part).reverse = asciiLower part.reverse :=
    List.map_reverse.symm
  rw [trim, trimEnd, trimStart, lowered, reversed, lowered, reversed]
  rfl

theorem trim_trim (text : Text) : text.trim.trim = text.trim := by
  have solid (part : Text) :
      (part.dropWhile isBlank).dropWhile isBlank = part.dropWhile isBlank := by
    have first := List.head?_dropWhile_not isBlank part
    cases kept : part.dropWhile isBlank with
    | nil => rfl
    | cons c rest =>
      rw [kept] at first
      exact List.dropWhile_cons_of_neg (Bool.not_eq_true _ ▸ first)
  have front : text.trim.trimStart = text.trim := by
    have ends : text.trim <+: text.trimStart := by
      rw [trim, trimEnd]
      exact List.reverse_suffix.mp (by rw [List.reverse_reverse]; exact List.dropWhile_suffix _)
    cases kept : text.trim with
    | nil => rfl
    | cons c rest =>
      rw [kept] at ends
      obtain ⟨behind, whole⟩ := ends
      have first := List.head?_dropWhile_not isBlank text
      rw [← trimStart, ← whole] at first
      exact List.dropWhile_cons_of_neg (Bool.not_eq_true _ ▸ first)
  rw [trim, front, trim, trimEnd, trimEnd, List.reverse_reverse, solid]

section Descriptions

variable {text : Text} (described : ∀ c ∈ text, c.isAlphanum = true ∨ c = '-' ∨ c = '.' ∨ c = ';')
include described

theorem not_mem_of_described {mark : Char} (unlettered : mark.isAlphanum = false)
    (unmarked : mark ∉ (['-', '.', ';'] : Text)) : mark ∉ text := by
  intro member
  rcases described mark member with letter | same | same | same
  · simp [unlettered] at letter
  all_goals simp [same] at unmarked

theorem trim_of_described : text.trim = text := by
  refine trim_eq_self fun c member => ?_
  rw [← Bool.not_eq_true]
  intro blank
  refine not_mem_of_described described (isAlphanum_of_isBlank blank) (fun listed => ?_) member
  simp only [List.mem_cons, List.not_mem_nil, or_false] at listed
  rcases listed with rfl | rfl | rfl <;> exact absurd blank (by decide)

end Descriptions

end Directory.Text

namespace Directory

/-- An attribute type is made of letters, digits and three marks. -/
theorem isAttributeType_characters {text : Text} (valid : isAttributeType text = true) :
    ∀ c ∈ text, c.isAlphanum = true ∨ c = '-' ∨ c = '.' ∨ c = ';' := by
  cases text with
  | nil => simp
  | cons first rest =>
    simp only [isAttributeType, Bool.and_eq_true, List.all_eq_true, Bool.or_eq_true,
      beq_iff_eq, or_assoc] at valid
    intro c member
    rcases List.mem_cons.mp member with rfl | member
    · exact .inl valid.1
    · exact valid.2 c member

end Directory
