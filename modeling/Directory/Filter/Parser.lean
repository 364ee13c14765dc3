import Directory.Filter.Basic

namespace Directory.Filter

open Text

/-! # Reading filters

The grammar is the one that printing produces, with spaces allowed between
conditions and blanks around attribute names.  A fault is reported with its place,
counted in octets from the start of the trimmed text. -/

inductive Fault.Reason where
  | expectedOpening
  | expectedClosing
  | unexpectedEnd
  | missingEquals
  | badAttribute
  | unterminated
  | substring
  | badEscape
  | trailing
deriving DecidableEq, Repr

def Fault.Reason.message : Fault.Reason → Text
  | expectedOpening => "expected '('"
  | expectedClosing => "expected ')'"
  | unexpectedEnd => "unexpected end"
  | missingEquals => "missing '='"
  | badAttribute => "bad attribute description"
  | unterminated => "unterminated item"
  | substring => "substring assertions are not supported"
  | badEscape => "bad escape"
  | trailing => "trailing characters"

/-- What is wrong, and the text from the place where it is. -/
structure Fault where
  reason : Fault.Reason
  rest : Text

/-- The characters of attribute names. -/
def isAttributeName (attr : Text) : Bool :=
  !attr.isEmpty && attr.all fun c => c.isAlphanum || c == '-' || c == '.' || c == ';'

/-- The pieces of a value with escapes: a backslash stands before two hexadecimal
digits. -/
def valuePieces? : Text → Option (List Piece)
  | [] => some []
  | '\\' :: high :: low :: rest => do
    let octet ← hexPair? high low
    let pieces ← valuePieces? rest
    some (.octet octet :: pieces)
  | c :: rest => if c = '\\' then none else (valuePieces? rest).map (.plain c :: ·)

def unescape? (raw : Text) : Option Text := (valuePieces? raw).bind ofPieces?

def skipSpaces (input : Text) : Text := input.dropWhile (· == ' ')

/-- A condition on one attribute, up to the parenthesis that closes it. -/
def readItem (input : Text) : Except Fault (Filter × Text) :=
  match cut? '=' input with
  | none => .error ⟨.missingEquals, input⟩
  | some (before, after) => do
    let attr := before.trim
    refuseIf (!isAttributeName attr) ⟨.badAttribute, input⟩
    match cut? ')' after with
    | none => .error ⟨.unterminated, input⟩
    | some (raw, behind) =>
      let closing := ')' :: behind
      if raw == ['*'] then .ok (present attr, closing)
      else do
        refuseIf (raw.contains '*') ⟨.substring, closing⟩
        match unescape? raw with
        | none => .error ⟨.badEscape, closing⟩
        | some value => .ok (equal attr value, closing)

mutual

/-- A filter in its parentheses and what follows it.  Every step into a filter or a
list of them uses up one unit of `fuel`. -/
def readFilter : Nat → Text → Except Fault (Filter × Text)
  | 0, input => .error ⟨.unexpectedEnd, input⟩
  | fuel + 1, input =>
    match skipSpaces input with
    | '(' :: inner => do
      let (filter, rest) ← match inner with
        | [] => .error ⟨.unexpectedEnd, []⟩
        | '&' :: list => do
          let (filters, rest) ← readFilters fuel list
          .ok (and filters, rest)
        | '|' :: list => do
          let (filters, rest) ← readFilters fuel list
          .ok (or filters, rest)
        | '!' :: inner => do
          let (filter, rest) ← readFilter fuel inner
          .ok (not filter, rest)
        | item => readItem item
      match skipSpaces rest with
      | ')' :: after => .ok (filter, after)
      | other => .error ⟨.expectedClosing, other⟩
    | other => .error ⟨.expectedOpening, other⟩

/-- The filters up to the first character that cannot start one. -/
def readFilters : Nat → Text → Except Fault (List Filter × Text)
  | 0, input => .error ⟨.unexpectedEnd, input⟩
  | fuel + 1, input =>
    match skipSpaces input with
    | '(' :: inner => do
      let (filter, rest) ← readFilter fuel ('(' :: inner)
      let (filters, rest) ← readFilters fuel rest
      .ok (filter :: filters, rest)
    | other => .ok ([], other)

end

/-- Reads a whole text.  Each step consumes a character or returns, so twice the
length bounds the steps. -/
def read (input : Text) : Except Fault Filter := do
  let (filter, rest) ← readFilter (2 * input.length + 2) input
  refuseIf (!rest.isEmpty) ⟨.trailing, rest⟩
  .ok filter

def parse (text : Text) : Except Error Filter :=
  let input := text.trim
  (read input).mapError fun fault =>
    let place := utf8Length input - utf8Length fault.rest
    .unwillingToPerform ("invalid filter " ++ input.quoted ++ " at " ++ natDigits place ++ ": " ++
      fault.reason.message)

end Directory.Filter
