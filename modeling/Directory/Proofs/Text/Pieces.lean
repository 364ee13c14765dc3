import Directory.Text.Blank
import Directory.Text.Escape
import Directory.Text.Split

namespace Directory.Text

/-! # Parts of texts found again

A text is cut where a separator was put between parts that do not hold it, trimming keeps a text
whose ends are no blanks, and the pieces of a text with escapes join to the text. -/

theorem cut?_append {separator : Char} {before : Text} (absent : separator ∉ before)
    (after : Text) : cut? separator (before ++ separator :: after) = some (before, after) := by
  induction before with
  | nil => simp [cut?]
  | cons c rest ih =>
    simp only [List.mem_cons, not_or] at absent
    simp only [List.cons_append, cut?, if_neg (Ne.symm absent.1), ih absent.2, Option.map_some]

theorem cutAt?_append {mark : Char} {before : Text} (absent : mark ∉ before) (more after : Text) :
    cutAt? (mark :: more) (before ++ mark :: more ++ after) = some (before, after) := by
  induction before with
  | nil =>
    have starts : (mark :: more).isPrefixOf (mark :: (more ++ after)) = true := by simp
    rw [List.nil_append, List.cons_append, cutAt?, if_pos starts]
    simp
  | cons c rest ih =>
    simp only [List.mem_cons, not_or] at absent
    have later : (mark :: more).isPrefixOf (c :: (rest ++ mark :: more ++ after)) = false := by
      rw [List.isPrefixOf, beq_false_of_ne absent.1, Bool.false_and]
    rw [List.cons_append, List.cons_append, cutAt?, later, if_neg Bool.false_ne_true, ih absent.2]
    rfl

theorem cut?_eq_none_iff {separator : Char} {text : Text} :
    cut? separator text = none ↔ separator ∉ text := by
  induction text with
  | nil => simp [cut?]
  | cons c rest ih =>
    rw [cut?, List.mem_cons, not_or, ← ih]
    split
    · next same => simp [same]
    · next other => simp [Ne.symm other]

theorem trim_eq_self_of_ends {text : Text} (first : ∀ c ∈ text.head?, isBlank c = false)
    (last : ∀ c ∈ text.getLast?, isBlank c = false) : text.trim = text := by
  have kept {part : Text} (solid : ∀ c ∈ part.head?, isBlank c = false) :
      part.dropWhile isBlank = part := by
    cases part with
    | nil => rfl
    | cons c rest => exact List.dropWhile_cons_of_neg (by simp [solid c rfl])
  rw [trim, trimStart, kept first, trimEnd, kept (by simpa using last), List.reverse_reverse]

/-- The pieces of a text whose escaped characters stand octet by octet. -/
def percentPieces (plain : Char → Bool) (text : Text) : List Piece :=
  text.flatMap fun c =>
    if plain c then [.plain c] else (String.utf8EncodeChar c).map .octet

variable {plain : Char → Bool}

theorem percentPieces?_octets (octets : List UInt8) (rest : Text) :
    percentPieces? ((octets.flatMap fun octet => '%' :: upperHex octet) ++ rest) =
      (percentPieces? rest).map (octets.map .octet ++ ·) := by
  induction octets with
  | nil => simp
  | cons octet others ih =>
    rw [List.flatMap_cons, List.append_assoc]
    show percentPieces? ('%' :: upperDigit (octet.toNat / 16) :: upperDigit (octet.toNat % 16) ::
      ((others.flatMap fun octet => '%' :: upperHex octet) ++ rest)) = _
    rw [percentPieces?, hexPair?_upperDigits, ih]
    cases percentPieces? rest <;> rfl

theorem percentPieces?_plain {c : Char} (other : c ≠ '%') (rest : Text) :
    percentPieces? (c :: rest) = (percentPieces? rest).map (.plain c :: ·) := by
  rw [percentPieces?.eq_3, if_neg other]
  rintro high low later rfl
  exact absurd rfl other

theorem percentPieces?_percentEncode (marked : plain '%' = false) (text : Text) :
    percentPieces? (percentEncode plain text) = some (percentPieces plain text) := by
  induction text with
  | nil => rfl
  | cons c rest ih =>
    simp only [percentEncode, percentPieces] at ih ⊢
    rw [List.flatMap_cons, List.flatMap_cons]
    cases shown : plain c with
    | true =>
      have other : c ≠ '%' := by
        rintro rfl
        simp [marked] at shown
      rw [if_pos rfl, List.singleton_append, percentPieces?_plain other, ih]
      rfl
    | false =>
      rw [if_neg Bool.false_ne_true, percentPieces?_octets, ih]
      rfl

theorem joinPieces?_percentPieces (before text : Text) :
    joinPieces? (encodeUtf8 before) (percentPieces plain text) = some (before ++ text) := by
  induction text generalizing before with
  | nil => simp [percentPieces, joinPieces?, decodeUtf8_encodeUtf8]
  | cons c rest ih =>
    simp only [percentPieces] at ih ⊢
    rw [List.flatMap_cons]
    split
    · have after := ih []
      simp only [encodeUtf8, List.flatMap_nil, List.nil_append] at after
      simp [joinPieces?, decodeUtf8_encodeUtf8, after]
    · have later := ih (before ++ [c])
      rw [encodeUtf8_append] at later
      have single : encodeUtf8 [c] = String.utf8EncodeChar c := by simp [encodeUtf8]
      rw [joinPieces?_octets, ← single, later, List.append_assoc, List.singleton_append]

/-- Resolving percent escapes undoes them, as long as the percent sign is escaped itself. -/
theorem ofPieces?_percentPieces (text : Text) :
    ofPieces? (percentPieces plain text) = some text :=
  joinPieces?_percentPieces [] text

end Directory.Text
