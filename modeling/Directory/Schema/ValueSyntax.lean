import Directory.Name.Basic
import Directory.Text.Digits

namespace Directory

open Text

/-! # Value syntaxes

The syntaxes that can check a value, each under its object identifier.  Values of an
attribute whose syntax is not among them are taken as they are. -/

inductive ValueSyntax where
  | directoryString
  | ia5String
  | integer
  | boolean
  | distinguishedName
  | objectIdentifier
  | generalizedTime
  /-- Whole numbers of one octet with their sign. -/
  | byte
  /-- Whole numbers of two octets with their sign. -/
  | short
  /-- Whole numbers of four octets with their sign. -/
  | int
  /-- Whole numbers of eight octets with their sign. -/
  | long
deriving DecidableEq, Repr

namespace ValueSyntax

def all : List ValueSyntax :=
  [directoryString, ia5String, integer, boolean, distinguishedName, objectIdentifier,
    generalizedTime, byte, short, int, long]

def oid : ValueSyntax → Text
  | boolean => "1.3.6.1.4.1.1466.115.121.1.7"
  | distinguishedName => "1.3.6.1.4.1.1466.115.121.1.12"
  | directoryString => "1.3.6.1.4.1.1466.115.121.1.15"
  | generalizedTime => "1.3.6.1.4.1.1466.115.121.1.24"
  | ia5String => "1.3.6.1.4.1.1466.115.121.1.26"
  | integer => "1.3.6.1.4.1.1466.115.121.1.27"
  | objectIdentifier => "1.3.6.1.4.1.1466.115.121.1.38"
  | byte => "1.3.6.1.4.1.18060.0.4.1.0.0"
  | short => "1.3.6.1.4.1.18060.0.4.1.0.2"
  | long => "1.3.6.1.4.1.18060.0.4.1.0.3"
  | int => "1.3.6.1.4.1.18060.0.4.1.0.4"

def ofOid? (oid : Text) : Option ValueSyntax :=
  all.find? fun valueSyntax => valueSyntax.oid == oid

/-- Digits without leading zeros, behind a minus sign for negative numbers. -/
def isInteger (value : Text) : Bool :=
  let digits := match value with
    | '-' :: digits => digits
    | digits => digits
  !digits.isEmpty && digits.all Char.isDigit &&
    !(1 < digits.length && digits.head? == some '0') && !(value == ['-', '0'])

/-- An integer that a signed word of the given width can hold. -/
def isWord (width : Nat) (value : Text) : Bool :=
  isInteger value && (signedValue? value).any (fitsSigned width)

/-- A name of letters, digits and hyphens, or arcs of digits between dots. -/
def isObjectIdentifier : Text → Bool
  | [] => false
  | c :: rest =>
    if c.isAlpha then rest.all fun d => d.isAlphanum || d == '-'
    else if c.isDigit then
      (pieces (· == '.') (c :: rest)).all fun arc => !arc.isEmpty && arc.all Char.isDigit
    else false

/-- What stands before and after the last sign. -/
def cutLastSign? (value : Text) : Option (Text × Text) :=
  let isSign : Char → Bool := fun c => c == '+' || c == '-'
  let reversed := value.reverse
  match reversed.dropWhile (fun c => !isSign c) with
  | [] => none
  | _ :: before => some (before.reverse, (reversed.takeWhile (fun c => !isSign c)).reverse)

/-- A time of day and its zone: `Z` closes a time of the zero meridian, a sign stands
before the digits of another zone. -/
def splitZone? (value : Text) : Option (Text × Text) :=
  match value.getLast? with
  | some 'Z' => some (value.dropLast, [])
  | _ => cutLastSign? value

/-- A date down to the hour, the minute or the second. -/
def isClockReading (digits : Text) : Bool :=
  let field (start : Nat) : Nat := digitsValue ((digits.drop start).take 2)
  (digits.length == 10 || digits.length == 12 || digits.length == 14) &&
    digits.all Char.isDigit &&
    (1 ≤ field 4 && field 4 ≤ 12) && (1 ≤ field 6 && field 6 ≤ 31) && field 8 ≤ 23

def isGeneralizedTime (value : Text) : Bool :=
  match splitZone? value with
  | none => false
  | some (time, zone) =>
    let isMark : Char → Bool := fun c => c == '.' || c == ','
    let fractionFits := match time.dropWhile (fun c => !isMark c) with
      | [] => true
      | _ :: fraction => !fraction.isEmpty && fraction.all Char.isDigit
    (zone.isEmpty || (zone.length == 4 && zone.all Char.isDigit)) &&
      isClockReading (time.takeWhile (fun c => !isMark c)) && fractionFits

/-- Whether a value has the syntax. -/
def accepts (valueSyntax : ValueSyntax) (value : Text) : Bool :=
  match valueSyntax with
  | directoryString => !value.isEmpty
  | ia5String => value.all fun c => c.toNat < 0x80
  | integer => isInteger value
  | boolean => value == ofLiteral "TRUE" || value == ofLiteral "FALSE"
  | distinguishedName => (Dn.parse value).isOk
  | objectIdentifier => isObjectIdentifier value
  | generalizedTime => isGeneralizedTime value
  | byte => isWord 8 value
  | short => isWord 16 value
  | int => isWord 32 value
  | long => isWord 64 value

/-- What checks the values of a syntax, by its object identifier. -/
def checker? (oid : Text) : Option (Text → Bool) :=
  (ofOid? oid).map accepts

end ValueSyntax

end Directory
