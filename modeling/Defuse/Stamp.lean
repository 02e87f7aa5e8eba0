/-!
# Stamps

A date with a time of day, to the second, as the name of a backup carries it.
-/

namespace Defuse

/-- A date and a time of day. -/
structure Stamp where
  year : Int
  month : Nat
  day : Nat
  hour : Nat
  minute : Nat
  second : Nat
deriving DecidableEq, Repr

namespace Stamp

/-- Decimal digits, with zeros in front up to a width. -/
def padded (width n : Nat) : List Char :=
  let digits := Nat.toDigits 10 n
  List.replicate (width - digits.length) '0' ++ digits

/-- A year: at least four digits, and a sign where four digits are not enough. -/
def yearText (year : Int) : List Char :=
  let digits := padded 4 year.natAbs
  if year < 0 then '-' :: digits else if 9999 < year then '+' :: digits else digits

/-- The text of a stamp: the date, an underscore, and the time. -/
def chars (s : Stamp) : List Char :=
  yearText s.year ++ '.' :: padded 2 s.month ++ '.' :: padded 2 s.day ++ '_' :: padded 2 s.hour ++
    '.' :: padded 2 s.minute ++ '.' :: padded 2 s.second

/-- The text of a stamp. -/
def text (s : Stamp) : String := String.ofList s.chars

end Stamp

end Defuse
