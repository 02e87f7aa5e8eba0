import Defuse.Bytes

/-!
# Check sums

The check sum of an archive entry: the remainder of its bytes, read as a polynomial over the
field of two elements, by the polynomial `0xEDB88320`, with all bits turned round before and
after.
-/

namespace Defuse.Crc32

/-- One bit of a division by the polynomial. -/
def divideBit (r : UInt32) : UInt32 := if r &&& 1 = 0 then r >>> 1 else (r >>> 1) ^^^ 0xEDB88320

/-- Some bits of a division by the polynomial. -/
def divide : Nat → UInt32 → UInt32
  | 0, r => r
  | n + 1, r => divide n (divideBit r)

/-- The remainder behind one more byte. -/
def push (r : UInt32) (b : UInt8) : UInt32 := divide 8 (r ^^^ b.toUInt32)

/-- The check sum of a byte string. -/
def checksum (bs : Bytes) : UInt32 := ~~~(bs.foldl push 0xFFFFFFFF)

example : checksum [0x31, 0x32, 0x33, 0x34, 0x35, 0x36, 0x37, 0x38, 0x39] = 0xCBF43926 := by
  decide +kernel

end Defuse.Crc32
