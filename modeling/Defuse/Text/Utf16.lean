namespace Defuse.Text

/-!
# UTF-16 code units

A text is a list of characters; class files and character literals count in UTF-16 code
units, and a unit can be half of a pair that never meets its other half.

* `unitsOf` — the units of a text, two for a character beyond U+FFFF;
* `ofUnits` — the text of a list of units, every unpaired half read as U+FFFD;
* `unitsOf_append` — units are taken character by character.
-/

/-- The character that stands for what cannot be read. -/
def replacement : Char := '\uFFFD'

/-- The first half of a pair. -/
def isHighHalf (u : UInt16) : Bool := 0xD800 ≤ u && u < 0xDC00

/-- The second half of a pair. -/
def isLowHalf (u : UInt16) : Bool := 0xDC00 ≤ u && u < 0xE000

/-- The character of a pair of halves. -/
def joinHalves (high low : UInt16) : Char :=
  Char.ofNat (0x10000 + (high.toNat - 0xD800) * 0x400 + (low.toNat - 0xDC00))

/-- The character of a unit by itself. -/
def ofUnit (u : UInt16) : Char :=
  if isHighHalf u || isLowHalf u then replacement else Char.ofNat u.toNat

/-- The units of one character. -/
def unitsOfChar (c : Char) : List UInt16 :=
  if c.toNat < 0x10000 then [c.toNat.toUInt16]
  else
    [(0xD800 + (c.toNat - 0x10000) / 0x400).toUInt16,
     (0xDC00 + (c.toNat - 0x10000) % 0x400).toUInt16]

/-- The units of a text. -/
def unitsOf (cs : List Char) : List UInt16 := cs.flatMap unitsOfChar

/-- Reads units behind an already read text, which is given backwards. -/
def ofUnitsOnto : List Char → List UInt16 → List Char
  | acc, [] => acc.reverse
  | acc, [u] => (ofUnit u :: acc).reverse
  | acc, u :: v :: us =>
    if isHighHalf u && isLowHalf v then ofUnitsOnto (joinHalves u v :: acc) us
    else ofUnitsOnto (ofUnit u :: acc) (v :: us)

/-- The text of a list of units. -/
def ofUnits (us : List UInt16) : List Char := ofUnitsOnto [] us

/-! ### How the two act on parts -/

@[simp] theorem unitsOf_nil : unitsOf [] = [] := rfl

@[simp] theorem unitsOf_cons (c : Char) (cs : List Char) :
    unitsOf (c :: cs) = unitsOfChar c ++ unitsOf cs := by
  simp [unitsOf]

/-- Units are taken character by character. -/
@[simp] theorem unitsOf_append (cs ds : List Char) :
    unitsOf (cs ++ ds) = unitsOf cs ++ unitsOf ds := by
  simp [unitsOf]

/-- What is read already stays in front. -/
theorem ofUnitsOnto_eq : ∀ (us : List UInt16) (acc : List Char),
    ofUnitsOnto acc us = acc.reverse ++ ofUnits us
  | [], acc => by simp [ofUnits, ofUnitsOnto]
  | [u], acc => by simp [ofUnits, ofUnitsOnto]
  | u :: v :: us, acc => by
    unfold ofUnits ofUnitsOnto
    split <;> (rw [ofUnitsOnto_eq, ofUnitsOnto_eq _ [_]]; simp)

@[simp] theorem ofUnits_nil : ofUnits [] = [] := rfl

/-- A pair is one character. -/
theorem ofUnits_pair {u v : UInt16} (us : List UInt16) (hu : isHighHalf u = true)
    (hv : isLowHalf v = true) : ofUnits (u :: v :: us) = joinHalves u v :: ofUnits us := by
  rw [ofUnits, ofUnitsOnto, if_pos (by simp [hu, hv]), ofUnitsOnto_eq]
  rfl

/-- A unit that starts no pair is read by itself. -/
theorem ofUnits_cons {u : UInt16} (us : List UInt16) (hu : isHighHalf u = false) :
    ofUnits (u :: us) = ofUnit u :: ofUnits us := by
  cases us with
  | nil => rfl
  | cons v us =>
    rw [ofUnits, ofUnitsOnto, if_neg (by simp [hu]), ofUnitsOnto_eq]
    rfl

end Defuse.Text
