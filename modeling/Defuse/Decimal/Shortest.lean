import Defuse.Decimal.Scientific

/-!
# The fewest digits that read back

The text of a binary number has as few decimal digits as still read back to the same
number, and of those the nearest.  A number `m * 2 ^ q` is what all points between its two
half-way marks read back to; the marks themselves belong to it when `m` is even.  The grid
of multiples of `10 ^ k` is refined one power of ten at a time, and on the first grid that
has a point between the marks, one of the two grid neighbours of the number is such a point.

* `Span` — a number and its marks, in quarters of its last bit;
* `shortest` — the digits;
* `Layout`, `Layout.render` — where the point goes and from where on a power is written.
-/

namespace Defuse.Decimal

/-- A positive number `4 * m` and the marks around it, all in quarters of `2 ^ power`. -/
structure Span where
  /-- The number. -/
  value : Nat
  /-- The mark below. -/
  low : Nat
  /-- The mark above. -/
  high : Nat
  /-- The power of two of a quarter. -/
  power : Int
  /-- Whether the marks belong to the number. -/
  closed : Bool

/-- The span of `m * 2 ^ q`; below a power of two the next number is nearer. -/
def Span.of (f : Binary.Format) (m : Nat) (q : Int) : Span where
  value := 4 * m
  low := if m = f.hidden ∧ f.lowest < q then 4 * m - 1 else 4 * m - 2
  high := 4 * m + 2
  power := q - 2
  closed := m % 2 = 0

/-- Whether `c * gridStep` lies between the marks, all scaled to whole numbers. -/
def Span.holds (s : Span) (unit gridStep c : Nat) : Bool :=
  if s.closed then s.low * unit ≤ c * gridStep && c * gridStep ≤ s.high * unit
  else s.low * unit < c * gridStep && c * gridStep < s.high * unit

/-- The point of the grid of multiples of `10 ^ k` to write, if one reads back: the nearer
neighbour, and of two equally near the larger. -/
def Span.onGrid? (s : Span) (k : Int) : Option Nat :=
  let unit := 2 ^ s.power.toNat * 10 ^ (-k).toNat
  let step := 10 ^ k.toNat * 2 ^ (-s.power).toNat
  let below := s.value * unit / step
  let above := below + 1
  match s.holds unit step below, s.holds unit step above with
  | true, true =>
    if s.value * unit - below * step < above * step - s.value * unit then some below
    else some above
  | true, false => some below
  | false, true => some above
  | false, false => none

/-- Tries finer and finer grids. -/
def Span.search (s : Span) : Nat → Int → Scientific
  | 0, k => ⟨s.value, k⟩
  | fuel + 1, k =>
    match s.onGrid? k with
    | some c => ⟨c, k⟩
    | none => s.search fuel (k - 1)

/-- The fewest digits for `m * 2 ^ q`, where `m` is positive.  The first grid tried is
coarser than the number, and seventeen digits always suffice. -/
def shortest (f : Binary.Format) (m : Nat) (q : Int) : Scientific :=
  (Span.of f m q).search 24 (((m.log2 : Int) + q) * 30103 / 100000 + 2)

/-! ### The text -/

/-- Where a text writes a power of ten. -/
structure Layout where
  /-- Numbers below this power of ten are written with a power. -/
  positionalFrom : Int
  /-- Numbers from this power of ten on are written with a power. -/
  positionalBelow : Int

/-- Digits with the point behind the first `n`, padded with zeros on either side, and at
least one digit on each side of it. -/
def withPoint (digits : List Char) (n : Int) : List Char :=
  if n ≤ 0 then '0' :: '.' :: List.replicate (-n).toNat '0' ++ digits
  else if digits.length ≤ n.toNat then
    digits ++ List.replicate (n.toNat - digits.length) '0' ++ ['.', '0']
  else digits.take n.toNat ++ '.' :: digits.drop n.toNat

/-- One digit, a point before further ones, and the power of ten. -/
def withPower (digits : List Char) (power : Int) : List Char :=
  let tail := (toString power).toList
  match digits with
  | [] => []
  | [d] => d :: 'e' :: tail
  | d :: ds => d :: '.' :: ds ++ 'e' :: tail

/-- The text of a positive number. -/
def Layout.renderScientific (l : Layout) (s : Scientific) : List Char :=
  let digits := Nat.toDigits 10 s.digits
  let power := s.power + digits.length - 1
  if l.positionalFrom ≤ power ∧ power < l.positionalBelow then withPoint digits (power + 1)
  else withPower digits power

/-- The text of a bit pattern. -/
def Layout.render (l : Layout) (f : Binary.Format) (bits : Nat) : String :=
  let sign (negative : Bool) := if negative then "-" else ""
  match f.decode bits with
  | .nan => "NaN"
  | .infinite negative => sign negative ++ "inf"
  | .finite negative m q =>
    sign negative ++
      if m = 0 then "0.0" else String.ofList (l.renderScientific (shortest f m q))

end Defuse.Decimal
