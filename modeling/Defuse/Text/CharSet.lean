namespace Defuse.Text

/-!
# Sets of characters

A property of Unicode code points changes value a few hundred times along the code
space, so a set of characters is kept as the ascending list of the code points at
which membership flips, the first code point being outside unless `0` is listed.

* `CharSet.contains` — membership.
-/

/-- A set of characters, as the ascending code points at which membership changes. -/
structure CharSet where
  /-- Where membership changes, in ascending order. -/
  bounds : List Nat

/-- Whether `n` lies inside, when `inside` tells how the code points before the list stand. -/
def flipped (n : Nat) : List Nat → Bool → Bool
  | [], inside => inside
  | b :: bs, inside => if n < b then inside else flipped n bs (!inside)

/-- Membership: the number of changes up to and including the character is odd. -/
def CharSet.contains (s : CharSet) (c : Char) : Bool := flipped c.toNat s.bounds false

end Defuse.Text
