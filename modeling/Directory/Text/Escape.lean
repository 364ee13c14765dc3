import Directory.Text.Digits
import Directory.Text.Utf8

namespace Directory.Text

/-! # Escaped octets

Names, filters and URLs can name the octets of a character instead of showing it.
Octets that stand next to each other are read together, so a character may be spread
over several escapes but not over an escape and a character that shows itself.  Names
and filters put a backslash before the two digits of an octet, URLs a `%`. -/

/-- A part of a text with escapes. -/
inductive Piece where
  /-- A character that stands for itself. -/
  | plain (c : Char)
  /-- An octet of the UTF-8 form of the text. -/
  | octet (octet : UInt8)
deriving DecidableEq

/-- The text of the pieces that follow the octets `run`, unless some octets are no
characters. -/
def joinPieces? (run : List UInt8) : List Piece → Option Text
  | [] => decodeUtf8 run
  | .octet octet :: rest => joinPieces? (run ++ [octet]) rest
  | .plain c :: rest => do
    let before ← decodeUtf8 run
    let after ← joinPieces? [] rest
    some (before ++ c :: after)

/-- The text that the pieces make up. -/
def ofPieces? (pieces : List Piece) : Option Text := joinPieces? [] pieces

theorem ofPieces?_map_plain (text : Text) : ofPieces? (text.map Piece.plain) = some text := by
  unfold ofPieces?
  induction text with
  | nil => rfl
  | cons c rest ih => simp [joinPieces?, ih]

theorem joinPieces?_octets (run octets : List UInt8) (rest : List Piece) :
    joinPieces? run (octets.map Piece.octet ++ rest) = joinPieces? (run ++ octets) rest := by
  induction octets generalizing run with
  | nil => simp
  | cons octet others ih => simp [joinPieces?, ih, List.append_assoc]

/-- Escapes every octet of the characters that are not `plain`. -/
def percentEncode (plain : Char → Bool) (text : Text) : Text :=
  text.flatMap fun c =>
    if plain c then [c]
    else (String.utf8EncodeChar c).flatMap fun octet => '%' :: upperHex octet

/-- The pieces of a text with escapes, unless a `%` has no two digits after it. -/
def percentPieces? : Text → Option (List Piece)
  | [] => some []
  | '%' :: high :: low :: rest => do
    let octet ← hexPair? high low
    let pieces ← percentPieces? rest
    some (.octet octet :: pieces)
  | c :: rest => if c = '%' then none else (percentPieces? rest).map (.plain c :: ·)

example : percentEncode Char.isAlphanum "a b" = ofLiteral "a%20b" := by decide +kernel
example : (percentPieces? "a%2").isNone = true := by decide +kernel

end Directory.Text
