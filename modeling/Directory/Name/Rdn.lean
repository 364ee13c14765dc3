import Directory.Error
import Directory.Refusal
import Directory.Text.Basic
import Directory.Text.Blank
import Directory.Text.Escape
import Directory.Text.Lowercase
import Directory.Text.Split

namespace Directory

open Text

/-! # Relative distinguished names

One step of a name: an attribute type and a value.  Both are kept as they were
written, for display, beside the folded forms by which names are compared.  The
type carries what makes a step legal, so every step in existence has a written
type of the admitted characters and a value that is not blank. -/

/-- The characters of an attribute type: an ASCII letter or digit, then also `-`,
`.` and `;`. -/
def isAttributeType : Text → Bool
  | [] => false
  | c :: rest =>
    c.isAlphanum && rest.all fun d => d.isAlphanum || d == '-' || d == '.' || d == ';'

/-- The form in which naming values are compared: small letters, with one space
between words and none at the ends. -/
def foldValue (value : Text) : Text := value.foldBlanks.lowercase

structure Rdn where
  attrType : Text
  value : Text
  /-- The type by which steps are compared: the written one in small letters, or
  the name that a schema puts in its place. -/
  normType : Text
  normValue : Text
  typeValid : isAttributeType attrType = true
  normValue_eq : normValue = foldValue value
  normValue_ne : normValue ≠ []
deriving DecidableEq

namespace Rdn

/-- A step from a type, which may have blanks around it, and a plain value. -/
def make (attrType value : Text) : Except Error Rdn :=
  let attrType := attrType.trim
  if typeValid : isAttributeType attrType = true then
    if present : foldValue value ≠ [] then
      .ok {
        attrType, value, typeValid
        normType := attrType.asciiLower
        normValue := foldValue value
        normValue_eq := rfl
        normValue_ne := present }
    else .error (.invalidName ("empty value for attribute type " ++ attrType))
  else .error (.invalidName ("invalid attribute type " ++ attrType.quoted))

/-- The same step compared under another type name. -/
def withCanonicalType (rdn : Rdn) (canonical : Text) : Rdn :=
  { rdn with normType := canonical.asciiLower }

/-- What two steps must share to be the same step. -/
def key (rdn : Rdn) : Text × Text :=
  (rdn.normType, rdn.normValue)

instance : BEq Rdn := ⟨fun left right => left.key == right.key⟩

theorem beq_iff_key {left right : Rdn} : (left == right) = true ↔ left.key = right.key := by
  show (left.key == right.key) = true ↔ _
  exact beq_iff_eq

/-- Characters that a value cannot show without a backslash. -/
def isSpecial (c : Char) : Bool :=
  c == ',' || c == '+' || c == '"' || c == '\\' || c == '<' || c == '>' || c == ';' || c == '='

/-- Escapes all but the first character of a value: a space needs a backslash only
at the very end. -/
def escapeRest : Text → Text
  | [] => []
  | c :: rest =>
    (if isSpecial c || (c == ' ' && rest.isEmpty) then ['\\', c] else [c]) ++ escapeRest rest

/-- Escapes a value: besides the special characters, `#` and the space at the
front and the space at the end. -/
def escapeValue : Text → Text
  | [] => []
  | c :: rest =>
    (if isSpecial c || c == '#' || c == ' ' then ['\\', c] else [c]) ++ escapeRest rest

def written (attrType value : Text) : Text := attrType ++ '=' :: escapeValue value

/-- The step as it was given. -/
def text (rdn : Rdn) : Text := written rdn.attrType rdn.value

/-- The step in the form by which it is compared. -/
def normalized (rdn : Rdn) : Text := written rdn.normType rdn.normValue

/-- Drops spaces from the front of a reversed value, stopping at one that an odd
number of backslashes escapes. -/
def dropPlainSpaces : Text → Text
  | ' ' :: rest =>
    if (rest.takeWhile (· == '\\')).length % 2 == 1 then ' ' :: rest else dropPlainSpaces rest
  | reversed => reversed

/-- The value without the blanks before it and the unescaped spaces after it. -/
def trimValue (raw : Text) : Text := (dropPlainSpaces raw.trimStart.reverse).reverse

/-- Whether a backslash may stand before the character itself. -/
def isEscapable (c : Char) : Bool := decide (c.toNat < 0x80) && !c.isAlphanum

/-- The pieces of a value with escapes: a backslash stands before two hexadecimal
digits or before an ASCII character that is no letter or digit. -/
def valuePieces? : Text → Option (List Piece)
  | [] => some []
  | ['\\'] => none
  | ['\\', c] => if isEscapable c then some [.plain c] else none
  | '\\' :: c :: d :: rest =>
    match hexPair? c d with
    | some octet => (valuePieces? rest).map (.octet octet :: ·)
    | none => if isEscapable c then (valuePieces? (d :: rest)).map (.plain c :: ·) else none
  | c :: rest => (valuePieces? rest).map (.plain c :: ·)

/-- The value that a text with escapes stands for. -/
def unescape (raw : Text) : Except Error Text :=
  match valuePieces? raw with
  | none => .error (.invalidName ("bad escape sequence in " ++ raw.quoted))
  | some pieces =>
    match ofPieces? pieces with
    | none => .error (.invalidName ("escaped value is not UTF-8: " ++ raw.quoted))
    | some value => .ok value

def parse (raw : Text) : Except Error Rdn := do
  refuseIf (1 < (splitUnescaped '+' raw).length)
    (.invalidName ("multi-valued RDN not supported: " ++ raw.trim.quoted))
  match cutUnescaped? '=' raw with
  | none => .error (.invalidName ("missing '=' in " ++ raw.trim.quoted))
  | some (attrType, rawValue) => make attrType (← unescape (trimValue rawValue))

end Rdn

end Directory
