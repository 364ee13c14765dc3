import Directory.Text.Digits

namespace Directory

/-! # Instants

A reading of the clock in the zone of the zero meridian, and its text as Generalized
Time. -/

structure Instant where
  year : Int
  month : Nat
  day : Nat
  hour : Nat
  minute : Nat
  second : Nat
deriving DecidableEq, Repr

namespace Instant

/-- A number with leading zeros up to the given width. -/
def padded (width value : Nat) : Text :=
  let digits := Text.natDigits value
  List.replicate (width - digits.length) '0' ++ digits

/-- Four digits, behind a sign outside the years 0 to 9999. -/
def yearText (year : Int) : Text :=
  let digits := padded 4 year.natAbs
  if year < 0 then '-' :: digits else if year ≤ 9999 then digits else '+' :: digits

/-- Year, month, day, hour, minute and second in a row, closed by `Z`. -/
def generalizedTime (instant : Instant) : Text :=
  yearText instant.year ++ padded 2 instant.month ++ padded 2 instant.day ++
    padded 2 instant.hour ++ padded 2 instant.minute ++ padded 2 instant.second ++ ['Z']

example : generalizedTime ⟨2008, 10, 8, 2, 30, 0⟩ = Text.ofLiteral "20081008023000Z" := by
  decide +kernel

end Instant

end Directory
