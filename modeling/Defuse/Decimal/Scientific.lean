import Defuse.Binary.Format

/-!
# Decimal numbers with a power of ten

* `Scientific` — digits and a power of ten;
* `Scientific.ofChars?` — reads digits with at most one point, and a power of ten behind an
  `e`;
* `Scientific.toBits` — the nearest pattern of a binary format.
-/

namespace Defuse.Decimal

/-- `digits * 10 ^ power`. -/
structure Scientific where
  /-- The digits read as one whole number. -/
  digits : Nat
  /-- The power of ten. -/
  power : Int
deriving DecidableEq, Repr

/-- Reads one more decimal digit behind those already read. -/
def pushDigit (n : Nat) (c : Char) : Nat := 10 * n + (c.toNat - '0'.toNat)

/-- The whole number that decimal digits denote. -/
def ofDigits (cs : List Char) : Nat := cs.foldl pushDigit 0

/-- Decimal digits, at least one. -/
def naturalOfChars? (cs : List Char) : Option Nat :=
  if !cs.isEmpty && cs.all Char.isDigit then some (ofDigits cs) else none

/-- Decimal digits, at least one, behind an optional sign. -/
def intOfChars? : List Char → Option Int
  | '+' :: cs => (naturalOfChars? cs).map Int.ofNat
  | '-' :: cs => (naturalOfChars? cs).map fun n => -(n : Int)
  | cs => (naturalOfChars? cs).map Int.ofNat

/-- Whether a character introduces a power of ten. -/
def isPowerMark (c : Char) : Bool := c = 'e' || c = 'E'

/-- Reads digits with at most one point, then perhaps a power of ten. -/
def Scientific.ofChars? (cs : List Char) : Option Scientific :=
  let mantissa := cs.takeWhile (!isPowerMark ·)
  let whole := mantissa.takeWhile (· ≠ '.')
  let fraction := (mantissa.dropWhile (· ≠ '.')).drop 1
  let power? :=
    match cs.dropWhile (!isPowerMark ·) with
    | [] => some 0
    | _ :: rest => intOfChars? rest
  match naturalOfChars? (whole ++ fraction), power? with
  | some digits, some power => some ⟨digits, power - fraction.length⟩
  | _, _ => none

/-- The pattern of the nearest number.  A power of ten far outside the format decides
alone, so that no power of it has to be computed. -/
def Scientific.toBits (s : Scientific) (f : Binary.Format) : Nat :=
  if s.digits = 0 then 0
  else if 400 < s.power then f.infinity
  else if s.power + s.digits.log2 < -400 then 0
  else f.ofRatio (s.digits * 10 ^ s.power.toNat) (10 ^ (-s.power).toNat)

example : Scientific.ofChars? ['1', '.', '5', 'e', '+', '3'] = some ⟨15, 2⟩ := by decide

example : Scientific.ofChars? ['1', 'e', '5', 'e', '6'] = none := by decide

end Defuse.Decimal
