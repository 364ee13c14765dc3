import Directory.Json.Basic
import Directory.Text.Digits

namespace Directory

open Text

/-! # Reading JSON

The grammar of JSON without extensions: four blank characters, no control
characters inside a text, no leading zeros.  A document is one value with nothing
but blanks around it. -/

namespace Json.Reader

def skipBlanks (input : Text) : Text :=
  input.dropWhile fun c => c == ' ' || c == '\t' || c == '\n' || c == '\r'

def hexQuad? (a b c d : Char) : Option Nat := do
  some ((← hexDigit? a) * 0x1000 + (← hexDigit? b) * 0x100 + (← hexDigit? c) * 0x10 +
    (← hexDigit? d))

/-- The character that a one-letter escape names. -/
def simpleEscape? : Char → Option Nat
  | '"' => some 0x22
  | '\\' => some 0x5C
  | '/' => some 0x2F
  | 'b' => some 0x08
  | 'f' => some 0x0C
  | 'n' => some 0x0A
  | 'r' => some 0x0D
  | 't' => some 0x09
  | _ => none

/-- The code points of a text up to its closing quotation mark, and what follows;
escaped surrogates still stand apart. -/
def codePoints? : Text → Option (List Nat × Text)
  | [] => none
  | '"' :: rest => some ([], rest)
  | '\\' :: 'u' :: a :: b :: c :: d :: rest => do
    let point ← hexQuad? a b c d
    let (points, after) ← codePoints? rest
    some (point :: points, after)
  | '\\' :: c :: rest => do
    let point ← simpleEscape? c
    let (points, after) ← codePoints? rest
    some (point :: points, after)
  | c :: rest =>
    if c.toNat < 0x20 ∨ c = '\\' then none
    else (codePoints? rest).map fun (points, after) => (c.toNat :: points, after)

def isHighSurrogate (point : Nat) : Bool := 0xD800 ≤ point && point < 0xDC00

def isLowSurrogate (point : Nat) : Bool := 0xDC00 ≤ point && point < 0xE000

/-- Joins neighbouring halves of surrogate pairs; a half that stands alone is no
character. -/
def joinSurrogates? : List Nat → Option Text
  | [] => some []
  | [point] =>
    if isHighSurrogate point || isLowSurrogate point then none else some [Char.ofNat point]
  | high :: low :: rest =>
    if isHighSurrogate high then
      if isLowSurrogate low then
        (joinSurrogates? rest).map
          (Char.ofNat (0x10000 + (high - 0xD800) * 0x400 + (low - 0xDC00)) :: ·)
      else none
    else if isLowSurrogate high then none
    else (joinSurrogates? (low :: rest)).map (Char.ofNat high :: ·)

/-- A text after its opening quotation mark. -/
def text? (input : Text) : Option (Option Text × Text) :=
  (codePoints? input).map fun (points, after) =>
    (joinSurrogates? points, after)

/-- At least one digit. -/
def digits? (input : Text) : Option (Text × Text) :=
  match input.takeWhile Char.isDigit with
  | [] => none
  | digits => some (digits, input.dropWhile Char.isDigit)

def integer? (input : Text) : Option (Text × Text) :=
  match input with
  | '0' :: rest => if rest.head?.any Char.isDigit then none else some (['0'], rest)
  | _ => digits? input

def fraction? (input : Text) : Option (Text × Text) :=
  match input with
  | '.' :: rest => (digits? rest).map fun (digits, after) => ('.' :: digits, after)
  | _ => some ([], input)

def exponent? (input : Text) : Option (Text × Text) :=
  let sign : Text → Text × Text
    | '+' :: rest => (['+'], rest)
    | '-' :: rest => (['-'], rest)
    | rest => ([], rest)
  match input with
  | c :: rest =>
    if c = 'e' ∨ c = 'E' then
      (digits? (sign rest).2).map fun (digits, after) => (c :: (sign rest).1 ++ digits, after)
    else some ([], input)
  | [] => some ([], [])

def number? (input : Text) : Option (Json × Text) := do
  let (minus, input) := match input with
    | '-' :: rest => (['-'], rest)
    | _ => ([], input)
  let (whole, input) ← integer? input
  let (fraction, input) ← fraction? input
  let (exponent, input) ← exponent? input
  some (.number (minus ++ whole ++ fraction ++ exponent), input)

mutual

/-- A value after any blanks.  Every step into a value, an item or a member uses up
one unit of `fuel`. -/
def value? : Nat → Text → Option (Json × Text)
  | 0, _ => none
  | fuel + 1, input =>
    match skipBlanks input with
    | 'n' :: 'u' :: 'l' :: 'l' :: rest => some (.null, rest)
    | 't' :: 'r' :: 'u' :: 'e' :: rest => some (.bool true, rest)
    | 'f' :: 'a' :: 'l' :: 's' :: 'e' :: rest => some (.bool false, rest)
    | '"' :: rest => (text? rest).map fun (text, after) => (.string text, after)
    | '[' :: rest =>
      match skipBlanks rest with
      | ']' :: after => some (.array [], after)
      | first => (items? fuel first).map fun (items, after) => (.array items, after)
    | '{' :: rest =>
      match skipBlanks rest with
      | '}' :: after => some (.object [], after)
      | first => (members? fuel first).map fun (members, after) => (.object members, after)
    | other => number? other

/-- One or more items and the closing bracket. -/
def items? : Nat → Text → Option (List Json × Text)
  | 0, _ => none
  | fuel + 1, input => do
    let (item, rest) ← value? fuel input
    match skipBlanks rest with
    | ',' :: more =>
      let (items, after) ← items? fuel more
      some (item :: items, after)
    | ']' :: after => some ([item], after)
    | _ => none

/-- One or more members and the closing brace. -/
def members? : Nat → Text → Option (List (Option Text × Json) × Text)
  | 0, _ => none
  | fuel + 1, input =>
    match skipBlanks input with
    | '"' :: rest => do
      let (name, rest) ← text? rest
      match skipBlanks rest with
      | ':' :: rest =>
        let (value, rest) ← value? fuel rest
        match skipBlanks rest with
        | ',' :: more =>
          let (members, after) ← members? fuel more
          some ((name, value) :: members, after)
        | '}' :: after => some ([(name, value)], after)
        | _ => none
      | _ => none
    | _ => none

end

end Json.Reader

/-- The value of a document.  No part of a document is entered more often than it
has characters, which bounds the steps. -/
def Json.parse? (document : Text) : Option Json := do
  let (value, rest) ← Json.Reader.value? (2 * document.length + 2) document
  if (Json.Reader.skipBlanks rest).isEmpty then some value else none

end Directory
