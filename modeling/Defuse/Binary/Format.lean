import Defuse.Instances

namespace Defuse.Binary

/-!
# Binary floating point

A class file stores `float` and `double` constants as bit patterns of the two common
binary interchange formats.  Patterns are kept as they are; a number is taken out of a
pattern only to compute with it, and all computing is exact until one final rounding.

* `Format` — the parameters of a format, with `single` and `double`;
* `Number`, `Format.decode` — what a bit pattern denotes;
* `Format.ofRatio` — the pattern of the number nearest to a quotient, a tie going to the
  even significand;
* `Format.ofInt`, `Format.add`, `Format.convert` — built on it.
-/

/-- The parameters of a binary format. -/
structure Format where
  /-- Bits of a significand, its leading one included. -/
  precision : Nat
  /-- The power of two that the last bit of the smallest numbers stands for. -/
  lowest : Int
  /-- The exponent field of the infinities and of what is no number. -/
  topField : Nat

/-- Numbers of 32 bits. -/
def single : Format := ⟨24, -149, 255⟩

/-- Numbers of 64 bits. -/
def double : Format := ⟨53, -1074, 2047⟩

/-- The least significand with a leading one; also the weight of the exponent field. -/
def Format.hidden (f : Format) : Nat := 2 ^ (f.precision - 1)

/-- The pattern of positive infinity. -/
def Format.infinity (f : Format) : Nat := f.topField * f.hidden

/-- The weight of the sign. -/
def Format.signWeight (f : Format) : Nat := (f.topField + 1) * f.hidden

/-- The pattern that stands for the result of an undefined operation. -/
def Format.undefined (f : Format) : Nat := f.infinity + f.hidden / 2

/-- What a bit pattern denotes. -/
inductive Number where
  /-- No number. -/
  | nan
  /-- An infinity. -/
  | infinite (negative : Bool)
  /-- `significand * 2 ^ power`, with a sign that zero has too. -/
  | finite (negative : Bool) (significand : Nat) (power : Int)
deriving DecidableEq, Repr

/-- Takes a pattern apart. -/
def Format.decode (f : Format) (bits : Nat) : Number :=
  let negative := bits / f.signWeight % 2 = 1
  let field := bits / f.hidden % (f.topField + 1)
  let fraction := bits % f.hidden
  if field = f.topField then
    if fraction = 0 then .infinite negative else .nan
  else if field = 0 then .finite negative fraction f.lowest
  else .finite negative (f.hidden + fraction) (f.lowest + (field - 1 : Nat))

/-- Puts a sign in front of a pattern without one. -/
def Format.signed (f : Format) (negative : Bool) (magnitude : Nat) : Nat :=
  if negative then f.signWeight + magnitude else magnitude

/-! ### Rounding -/

/-- `num / den / 2 ^ power` as a quotient of natural numbers. -/
def scaled (num den : Nat) (power : Int) : Nat × Nat :=
  (num * 2 ^ (-power).toNat, den * 2 ^ power.toNat)

/-- The whole number nearest to a quotient, a tie going to the even one. -/
def nearest (num den : Nat) : Nat :=
  let whole := num / den
  let twice := 2 * (num % den)
  if twice < den then whole else if den < twice then whole + 1 else whole + whole % 2

/-- The power of two that the last bit of `num / den` stands for. -/
def Format.powerFor (f : Format) (num den : Nat) : Int :=
  let guess : Int := (num.log2 : Int) - den.log2 - f.precision
  let (n, d) := scaled num den guess
  max f.lowest (if n / d < 2 ^ f.precision then guess else guess + 1)

/-- The pattern of the number nearest to `num / den`, infinity where that is too large.
A significand that rounding carries beyond its bits counts up the exponent field. -/
def Format.ofRatio (f : Format) (num den : Nat) : Nat :=
  if num = 0 then 0
  else
    let power := f.powerFor num den
    let (n, d) := scaled num den power
    min f.infinity ((power - f.lowest).toNat * f.hidden + nearest n d)

/-- The pattern nearest to `significand * 2 ^ power`. -/
def Format.ofPower (f : Format) (significand : Nat) (power : Int) : Nat :=
  f.ofRatio (significand * 2 ^ power.toNat) (2 ^ (-power).toNat)

/-- The pattern nearest to a whole number. -/
def Format.ofInt (f : Format) (n : Int) : Nat := f.signed (n < 0) (f.ofRatio n.natAbs 1)

/-- The pattern of a number. -/
def Format.encode (f : Format) : Number → Nat
  | .nan => f.undefined
  | .infinite negative => f.signed negative f.infinity
  | .finite negative significand power => f.signed negative (f.ofPower significand power)

/-- The nearest pattern of another format. -/
def Format.convert (source target : Format) (bits : Nat) : Nat :=
  target.encode (source.decode bits)

/-- Turns the sign of a pattern round. -/
def Format.negate (f : Format) (bits : Nat) : Nat :=
  if bits < f.signWeight then bits + f.signWeight else bits - f.signWeight

/-! ### Addition -/

/-- A finite number as a multiple of `2 ^ power`. -/
def aligned (negative : Bool) (significand : Nat) (power lower : Int) : Int :=
  let n : Int := significand * 2 ^ (power - lower).toNat
  if negative then -n else n

/-- The exact sum; zero is negative only as the sum of two negative numbers. -/
def Number.add : Number → Number → Number
  | .finite s m p, .finite t n q =>
    let lower := min p q
    let sum := aligned s m p lower + aligned t n q lower
    .finite (if sum = 0 then s && t else sum < 0) sum.natAbs lower
  | .infinite s, .infinite t => if s = t then .infinite s else .nan
  | .infinite s, .finite .. => .infinite s
  | .finite .., .infinite t => .infinite t
  | .nan, _ => .nan
  | _, .nan => .nan

/-- The pattern nearest to a sum. -/
def Format.add (f : Format) (a b : Nat) : Nat :=
  f.encode ((f.decode a).add (f.decode b))

example : double.ofRatio 1 10 = 0x3FB999999999999A := by decide +kernel

example : single.ofInt 16777217 = 0x4B800000 := by decide +kernel

example : double.add 0x3FB999999999999A 0x3FC999999999999A = 0x3FD3333333333334 := by
  decide +kernel

end Defuse.Binary
