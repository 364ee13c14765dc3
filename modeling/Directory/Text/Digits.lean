import Directory.Text.Basic

namespace Directory.Text

/-! # Digits

Whole numbers in decimal digits, and octets in hexadecimal ones. -/

/-- The value of a string of digits, most significant first. -/
def digitsValue (digits : Text) : Nat :=
  digits.foldl (fun value digit => value * 10 + (digit.toNat - '0'.toNat)) 0

/-- The number that digits with an optional sign stand for. -/
def signedValue? (text : Text) : Option Int :=
  let magnitude? (digits : Text) : Option Nat :=
    if digits.isEmpty || !digits.all Char.isDigit then none else some (digitsValue digits)
  match text with
  | '-' :: digits => (magnitude? digits).map fun magnitude => -Int.ofNat magnitude
  | '+' :: digits => (magnitude? digits).map Int.ofNat
  | digits => (magnitude? digits).map Int.ofNat

/-- The decimal digits of a number. -/
def natDigits (value : Nat) : Text := Nat.toDigits 10 value

/-- Whether a number fits into a signed word of the given width. -/
def fitsSigned (width : Nat) (value : Int) : Bool :=
  let bound := Int.ofNat (Nat.pow 2 (width - 1))
  decide (-bound ≤ value ∧ value < bound)

example : signedValue? "-007" = some (-7) ∧ signedValue? "+" = none := by decide +kernel
example : fitsSigned 8 (-128) = true ∧ fitsSigned 8 128 = false := by decide

/-- The value of a hexadecimal digit in either letter case. -/
def hexDigit? (c : Char) : Option Nat :=
  if '0' ≤ c ∧ c ≤ '9' then some (c.toNat - '0'.toNat)
  else if 'a' ≤ c ∧ c ≤ 'f' then some (c.toNat - 'a'.toNat + 10)
  else if 'A' ≤ c ∧ c ≤ 'F' then some (c.toNat - 'A'.toNat + 10)
  else none

/-- The octet that two hexadecimal digits name. -/
def hexPair? (high low : Char) : Option UInt8 := do
  let high ← hexDigit? high
  let low ← hexDigit? low
  some (UInt8.ofNat (high * 16 + low))

/-- The capital hexadecimal digit of a value below sixteen. -/
def upperDigit (value : Nat) : Char :=
  (Text.ofLiteral "0123456789ABCDEF").getD value '0'

/-- An octet as two capital hexadecimal digits. -/
def upperHex (octet : UInt8) : Text :=
  [upperDigit (octet.toNat / 16), upperDigit (octet.toNat % 16)]

/-- A number in small hexadecimal digits without leading zeros. -/
def lowerHex (value : Nat) : Text :=
  Nat.toDigits 16 value

private theorem hexDigit?_upperDigit : ∀ value < 16, hexDigit? (upperDigit value) = some value := by
  decide

theorem hexPair?_upperDigits (octet : UInt8) :
    hexPair? (upperDigit (octet.toNat / 16)) (upperDigit (octet.toNat % 16)) = some octet := by
  have small : octet.toNat < 256 := octet.toNat_lt_size
  simp only [hexPair?, hexDigit?_upperDigit (octet.toNat / 16) (by omega),
    hexDigit?_upperDigit (octet.toNat % 16) (by omega), bind, Option.bind]
  simp [show octet.toNat / 16 * 16 + octet.toNat % 16 = octet.toNat by omega]

end Directory.Text
