import Defuse.Bytes

/-!
# Bit streams

A compressed stream is read bit by bit, the lowest bit of each byte first.

* `Bits`, `Bits.read`, `Bits.take` — single bits and small numbers, lowest bit first;
* `Bits.align` — the bytes behind a byte that has been read in part.
-/

namespace Defuse.Archive

/-- A bit stream. -/
structure Bits where
  /-- The bytes that have not been read to their end. -/
  rest : Bytes
  /-- The number of bits of the first byte that have been read. -/
  used : Nat
deriving DecidableEq, Repr

namespace Bits

/-- All bits of a byte string. -/
def ofBytes (bs : Bytes) : Bits := ⟨bs, 0⟩

/-- Reads one bit. -/
def read (s : Bits) : Option (Bool × Bits) :=
  match s.rest with
  | [] => none
  | b :: bs =>
    some (b.toNat.testBit s.used, if s.used < 7 then ⟨b :: bs, s.used + 1⟩ else ⟨bs, 0⟩)

/-- Reads a number of as many bits as told. -/
def take : Nat → Bits → Option (Nat × Bits)
  | 0, s => some (0, s)
  | n + 1, s =>
    match s.read with
    | none => none
    | some (bit, s) => (take n s).map fun (v, s) => (2 * v + bit.toNat, s)

/-- The bytes behind the last bit that has been read. -/
def align (s : Bits) : Bytes := if s.used = 0 then s.rest else s.rest.drop 1

end Bits

end Defuse.Archive
