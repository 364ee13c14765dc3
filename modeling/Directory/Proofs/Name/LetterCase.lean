import Directory.Proofs.Name.Written
import Directory.Proofs.Text.LetterCase

namespace Directory

open Text

/-! # The case of ASCII letters in written names

What separates the parts of a written name, what escapes and what a hexadecimal digit stands for do
not depend on letter case, and the parts are compared in small letters.  So a name means the same
with small letters for its capitals. -/

/-- Computations of two parts show the same if what the first parts show decides what the second
ones do. -/
theorem toOption_bind_congr {ε α β γ δ : Type} {left right : Except ε α}
    {nextLeft nextRight : α → Except ε β} {view : α → γ} {result : β → δ}
    (first : left.toOption.map view = right.toOption.map view)
    (later : ∀ x y, view x = view y →
      (nextLeft x).toOption.map result = (nextRight y).toOption.map result) :
    (left >>= nextLeft).toOption.map result = (right >>= nextRight).toOption.map result := by
  cases left with
  | error _ =>
    cases right with
    | error _ => rfl
    | ok _ => simp [Except.toOption] at first
  | ok x =>
    cases right with
    | error _ => simp [Except.toOption] at first
    | ok y => exact later x y (Option.some.inj first)

namespace Text

variable {separator : Char}

theorem asciiLower_cons (c : Char) (text : Text) :
    asciiLower (c :: text) = c.toLower :: asciiLower text := rfl

theorem asciiLower_reverse (text : Text) : (asciiLower text).reverse = asciiLower text.reverse :=
  List.map_reverse.symm

/-- Texts by their escapes, the way they are cut. -/
theorem escaped_induction {motive : Text → Prop} (nil : motive []) (dangling : motive ['\\'])
    (escaped : ∀ c rest, motive rest → motive ('\\' :: c :: rest))
    (plain : ∀ c rest, c ≠ '\\' → motive rest → motive (c :: rest)) (text : Text) :
    motive text := by
  fun_induction splitUnescaped '\\' text with
  | case1 => exact nil
  | case2 => exact dangling
  | case3 c rest ih => exact escaped c rest ih
  | case4 rest single pair =>
    cases rest with
    | nil => exact absurd rfl (single rfl)
    | cons c later => exact absurd rfl (pair c later rfl)
  | case5 c rest _ _ other ih => exact plain c rest other ih

theorem splitUnescaped_plain {c : Char} (plain : c ≠ '\\') (rest : Text) :
    splitUnescaped separator (c :: rest) =
      if c = separator then [] :: splitUnescaped separator rest
      else putFirst [c] (splitUnescaped separator rest) := by
  rw [splitUnescaped.eq_4]
  · rintro rfl
    exact absurd rfl plain
  · rintro _ _ rfl
    exact absurd rfl plain

theorem putFirst_asciiLower (front : Text) (texts : List Text) :
    putFirst (asciiLower front) (texts.map asciiLower) =
      (putFirst front texts).map asciiLower := by
  cases texts <;> simp [putFirst, asciiLower]

theorem splitUnescaped_asciiLower (nonletter : separator.isAlpha = false) (text : Text) :
    splitUnescaped separator (asciiLower text) =
      (splitUnescaped separator text).map asciiLower := by
  induction text using escaped_induction with
  | nil => rfl
  | dangling => rfl
  | escaped c rest ih =>
    have lowered : asciiLower ('\\' :: c :: rest) = '\\' :: c.toLower :: asciiLower rest := rfl
    rw [lowered, splitUnescaped, ih, splitUnescaped, ← putFirst_asciiLower]
    rfl
  | plain c rest plain ih =>
    have stillPlain := mt (toLower_eq_iff (by rfl)).mp plain
    rw [asciiLower_cons, splitUnescaped_plain stillPlain, splitUnescaped_plain plain, ih]
    simp only [toLower_eq_iff nonletter]
    split
    · rfl
    · rw [← putFirst_asciiLower]
      rfl

theorem cutUnescaped?_asciiLower (nonletter : separator.isAlpha = false) (text : Text) :
    cutUnescaped? separator (asciiLower text) =
      (cutUnescaped? separator text).map (Prod.map asciiLower asciiLower) := by
  induction text using escaped_induction with
  | nil => rfl
  | dangling => rfl
  | escaped c rest ih =>
    have lowered : asciiLower ('\\' :: c :: rest) = '\\' :: c.toLower :: asciiLower rest := rfl
    rw [lowered, cutUnescaped?, ih, cutUnescaped?, Option.map_map, Option.map_map]
    rfl
  | plain c rest plain ih =>
    have stillPlain := mt (toLower_eq_iff (by rfl)).mp plain
    rw [asciiLower_cons, cutUnescaped?_plain stillPlain, cutUnescaped?_plain plain, ih]
    simp only [toLower_eq_iff nonletter]
    split
    · rfl
    · rw [Option.map_map, Option.map_map]
      rfl

theorem hexDigit?_toLower (c : Char) : hexDigit? c.toLower = hexDigit? c := by
  have capitals : ∀ letter < 26, hexDigit? (Char.ofNat (letter + 97)) =
      hexDigit? (Char.ofNat (letter + 65)) := by decide
  by_cases capital : 65 ≤ c.toNat ∧ c.toNat ≤ 90
  · have letter := capitals (c.toNat - 65) (by omega)
    have number := toNat_toLower c
    rw [if_pos capital] at number
    rw [show c.toNat - 65 + 97 = c.toLower.toNat by omega,
      show c.toNat - 65 + 65 = c.toNat by omega, Char.ofNat_toNat, Char.ofNat_toNat] at letter
    exact letter
  · have same : c.toLower = c := by rw [← Char.toNat_inj, toNat_toLower, if_neg capital]
    rw [same]

theorem hexPair?_toLower (high low : Char) :
    hexPair? high.toLower low.toLower = hexPair? high low := by
  rw [hexPair?, hexPair?, hexDigit?_toLower, hexDigit?_toLower]

theorem isAlphanum_toLower (c : Char) : c.toLower.isAlphanum = c.isAlphanum := by
  rw [Bool.eq_iff_iff, isAlphanum_iff, isAlphanum_iff, toNat_toLower]
  split <;> omega

theorem trimStart_asciiLower (text : Text) :
    (asciiLower text).trimStart = asciiLower text.trimStart := by
  have sameTest : isBlank ∘ Char.toLower = isBlank := funext isBlank_toLower
  rw [trimStart, asciiLower, List.dropWhile_map, sameTest]
  rfl

def Piece.lowered : Piece → Piece
  | plain c => plain c.toLower
  | octet value => octet value

theorem joinPieces?_lowered (run : List UInt8) (pieces : List Piece) :
    (joinPieces? run (pieces.map Piece.lowered)).map asciiLower =
      (joinPieces? run pieces).map asciiLower := by
  induction pieces generalizing run with
  | nil => rfl
  | cons piece rest ih =>
    cases piece with
    | octet octet => exact ih (run ++ [octet])
    | plain c =>
      have later := ih []
      rw [List.map_cons, Piece.lowered, joinPieces?, joinPieces?]
      cases decodeUtf8 run with
      | none => rfl
      | some before =>
        have settled : c.toLower.toLower = c.toLower :=
          List.head_eq_of_cons_eq (asciiLower_asciiLower [c])
        have shown (after : Text) : asciiLower (before ++ c :: after) =
            asciiLower before ++ c.toLower :: asciiLower after := List.map_append
        have shownLowered (after : Text) : asciiLower (before ++ c.toLower :: after) =
            asciiLower before ++ c.toLower :: asciiLower after := by
          rw [asciiLower, List.map_append, List.map_cons, settled]
          rfl
        cases joined : joinPieces? [] rest <;>
          cases joinedLowered : joinPieces? [] (rest.map Piece.lowered) <;>
          simp_all [bind, Option.bind]

end Text

namespace Rdn

theorem isEscapable_toLower (c : Char) : isEscapable c.toLower = isEscapable c := by
  rw [isEscapable, isEscapable, isAlphanum_toLower, toNat_toLower]
  split
  · have : decide (c.toNat + 32 < 128) = decide (c.toNat < 128) := by
      rw [decide_eq_decide]
      omega
    rw [this]
  · rfl

theorem dropPlainSpaces_asciiLower (reversed : Text) :
    dropPlainSpaces (asciiLower reversed) = asciiLower (dropPlainSpaces reversed) := by
  induction reversed with
  | nil => rfl
  | cons c rest ih =>
    by_cases space : c = ' '
    · subst space
      have counted : (asciiLower rest).takeWhile (· == '\\') =
          asciiLower (rest.takeWhile (· == '\\')) := by
        have sameTest : (fun c : Char => c == '\\') ∘ Char.toLower = fun c => c == '\\' := by
          funext c
          rw [Function.comp_apply, Bool.eq_iff_iff, beq_iff_eq, beq_iff_eq,
            toLower_eq_iff (by rfl)]
        rw [asciiLower, List.takeWhile_map, sameTest, asciiLower]
      have lowered : asciiLower (' ' :: rest) = ' ' :: asciiLower rest := rfl
      rw [lowered, dropPlainSpaces, counted, asciiLower, List.length_map, ih, dropPlainSpaces]
      split <;> rfl
    · have stillOther := mt (toLower_eq_iff (by rfl)).mp space
      have kept {first : Char} (other : first ≠ ' ') (later : Text) :
          dropPlainSpaces (first :: later) = first :: later := by
        rw [dropPlainSpaces]
        rintro _ ⟨rfl, _⟩
        exact other rfl
      rw [asciiLower_cons, kept stillOther, kept space, asciiLower_cons]

theorem valuePieces?_asciiLower (raw : Text) :
    valuePieces? (asciiLower raw) = (valuePieces? raw).map (List.map Piece.lowered) := by
  fun_induction valuePieces? raw with
  | case1 => rfl
  | case2 => rfl
  | case3 c escapable =>
    have lowered : asciiLower ['\\', c] = ['\\', c.toLower] := rfl
    rw [lowered, valuePieces?, isEscapable_toLower, if_pos escapable]
    rfl
  | case4 c other =>
    have lowered : asciiLower ['\\', c] = ['\\', c.toLower] := rfl
    rw [lowered, valuePieces?, isEscapable_toLower, if_neg other]
    rfl
  | case5 c d rest octet found ih =>
    have lowered : asciiLower ('\\' :: c :: d :: rest) =
        '\\' :: c.toLower :: d.toLower :: asciiLower rest := rfl
    rw [lowered, valuePieces?, hexPair?_toLower, found]
    simp only [ih, Option.map_map]
    rfl
  | case6 c d rest found escapable ih =>
    have lowered : asciiLower ('\\' :: c :: d :: rest) =
        '\\' :: c.toLower :: d.toLower :: asciiLower rest := rfl
    rw [asciiLower_cons] at ih
    rw [lowered, valuePieces?, hexPair?_toLower, found]
    simp only [isEscapable_toLower, if_pos escapable, ih, Option.map_map]
    rfl
  | case7 c d rest found other =>
    have lowered : asciiLower ('\\' :: c :: d :: rest) =
        '\\' :: c.toLower :: d.toLower :: asciiLower rest := rfl
    rw [lowered, valuePieces?, hexPair?_toLower, found]
    simp only [isEscapable_toLower, if_neg other]
    rfl
  | case8 c rest single pair escape ih =>
    have plain : c ≠ '\\' := by
      rintro rfl
      cases rest with
      | nil => exact single rfl rfl
      | cons d later =>
        cases later with
        | nil => exact pair d rfl rfl
        | cons e later => exact escape d e later rfl rfl
    have stillPlain := mt (toLower_eq_iff (by rfl)).mp plain
    rw [asciiLower_cons, valuePieces?_plain stillPlain, ih, Option.map_map, Option.map_map]
    rfl

theorem trimValue_asciiLower (raw : Text) :
    trimValue (asciiLower raw) = asciiLower (trimValue raw) := by
  rw [trimValue, trimStart_asciiLower, asciiLower_reverse, dropPlainSpaces_asciiLower,
    asciiLower_reverse, trimValue]

theorem toOption_unescape (raw : Text) :
    (unescape raw).toOption = (valuePieces? raw).bind ofPieces? := by
  rw [unescape]
  cases valuePieces? raw with
  | none => rfl
  | some pieces =>
    simp only [Option.bind_some]
    cases ofPieces? pieces <;> rfl

theorem unescape_asciiLower (raw : Text) :
    (unescape (asciiLower raw)).toOption.map asciiLower =
      (unescape raw).toOption.map asciiLower := by
  rw [toOption_unescape, toOption_unescape, valuePieces?_asciiLower]
  cases valuePieces? raw with
  | none => rfl
  | some pieces => exact joinPieces?_lowered [] pieces

theorem isAttributeType_asciiLower (text : Text) :
    isAttributeType (asciiLower text) = isAttributeType text := by
  cases text with
  | nil => rfl
  | cons c rest =>
    have sameTest : (fun d : Char => d.isAlphanum || d == '-' || d == '.' || d == ';') ∘
        Char.toLower = fun d => d.isAlphanum || d == '-' || d == '.' || d == ';' := by
      funext d
      have dash : d.toLower = '-' ↔ d = '-' := toLower_eq_iff (by rfl)
      have dot : d.toLower = '.' ↔ d = '.' := toLower_eq_iff (by rfl)
      have semicolon : d.toLower = ';' ↔ d = ';' := toLower_eq_iff (by rfl)
      simp only [Function.comp_apply, isAlphanum_toLower, Bool.beq_eq_decide_eq, dash, dot,
        semicolon]
    rw [asciiLower_cons, isAttributeType, isAttributeType, isAlphanum_toLower, asciiLower,
      List.all_map, sameTest]

theorem key_make (attrType value : Text) :
    (make attrType value).toOption.map key =
      if isAttributeType attrType.trim = true ∧ foldValue value ≠ [] then
        some (attrType.trim.asciiLower, foldValue value)
      else none := by
  unfold make
  dsimp only
  split
  · next valid =>
    split
    · next present => rw [if_pos ⟨valid, present⟩]; rfl
    · next blank => rw [if_neg fun both => blank both.2]; rfl
  · next invalid => rw [if_neg fun both => invalid both.1]; rfl

theorem key_make_congr (attrType : Text) {left right : Text}
    (same : asciiLower left = asciiLower right) :
    (make (asciiLower attrType) left).toOption.map key =
      (make attrType right).toOption.map key := by
  have folded : foldValue left = foldValue right :=
    foldValue_eq_of_sameIgnoringCase (sameIgnoringCase_iff.mpr same)
  rw [key_make, key_make, trim_asciiLower, isAttributeType_asciiLower, asciiLower_asciiLower,
    folded]

theorem key_parse_asciiLower (raw : Text) :
    (parse (asciiLower raw)).toOption.map key = (parse raw).toOption.map key := by
  rw [parse, parse, splitUnescaped_asciiLower (by rfl), List.length_map,
    cutUnescaped?_asciiLower (by rfl)]
  have counted (several : Bool) (left right : Error) :
      (refuseIf several left).toOption.map id = (refuseIf several right).toOption.map id := by
    cases several <;> rfl
  refine toOption_bind_congr (counted _ _ _) fun _ _ _ => ?_
  cases cutUnescaped? '=' raw with
  | none => rfl
  | some parts =>
    obtain ⟨attrType, rawValue⟩ := parts
    simp only [Option.map_some, Prod.map_apply, trimValue_asciiLower]
    exact toOption_bind_congr (unescape_asciiLower _) fun _ _ => key_make_congr attrType

end Rdn

namespace Dn

theorem keys_mapM_parse_asciiLower (raws : List Text) :
    ((raws.map asciiLower).mapM Rdn.parse).toOption.map (List.map Rdn.key) =
      (raws.mapM Rdn.parse).toOption.map (List.map Rdn.key) := by
  induction raws with
  | nil => rfl
  | cons raw rest ih =>
    rw [List.map_cons, List.mapM_cons, List.mapM_cons]
    refine toOption_bind_congr (Rdn.key_parse_asciiLower raw) fun first lowered sameKey => ?_
    refine toOption_bind_congr ih fun others loweredOthers sameKeys => ?_
    exact congrArg some (List.cons_eq_cons.mpr ⟨sameKey, sameKeys⟩)

theorem path_parse_asciiLower (text : Text) :
    (parse (asciiLower text)).toOption.map path = (parse text).toOption.map path := by
  have blank : (asciiLower text).trim.isEmpty = text.trim.isEmpty := by
    rw [trim_asciiLower, asciiLower, List.isEmpty_map]
  rw [parse, parse, blank, splitUnescaped_asciiLower (by rfl)]
  split
  · rfl
  · exact toOption_bind_congr (keys_mapM_parse_asciiLower _) fun _ _ => congrArg some

end Dn

end Directory
