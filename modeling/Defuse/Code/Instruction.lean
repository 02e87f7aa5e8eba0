import Defuse.Bytes

/-!
# Instructions

The instructions that a generated method body is made of, and their encoding: an opcode of
one byte, then the operand with its most significant byte first.

* `Instruction`, with `size` and `isTerminal`;
* `Instruction.encode`, `Instruction.encodeAll`;
* `Instruction.decode`, `Instruction.decodeAll` — a list of instructions, or the position of
  the first one that cannot be read.
-/

namespace Defuse

/-- The instructions of a generated body. -/
inductive Instruction where
  | nop
  | aconstNull
  | iconstM1
  | iconst0
  | iconst1
  | iconst2
  | iconst3
  | iconst4
  | iconst5
  | lconst0
  | lconst1
  | fconst0
  | fconst1
  | fconst2
  | dconst0
  | dconst1
  | bipush (value : Int8)
  | sipush (value : Int16)
  | ldc (index : UInt8)
  | ldcW (index : UInt16)
  | ldc2W (index : UInt16)
  | aload0
  | aload1
  | dup
  | ireturn
  | lreturn
  | freturn
  | dreturn
  | areturn
  | return
  | invokespecial (index : UInt16)
  | new (index : UInt16)
  | athrow
deriving DecidableEq, Repr

namespace Instruction

/-- The number of bytes of the encoding. -/
def size : Instruction → Nat
  | bipush _ | ldc _ => 2
  | sipush _ | ldcW _ | ldc2W _ | invokespecial _ | new _ => 3
  | _ => 1

/-- Whether control never goes on to the next instruction. -/
def isTerminal : Instruction → Bool
  | ireturn | lreturn | freturn | dreturn | areturn | .return | athrow => true
  | _ => false

/-- The bytes of an instruction. -/
def encode : Instruction → Bytes
  | nop => [0x00]
  | aconstNull => [0x01]
  | iconstM1 => [0x02]
  | iconst0 => [0x03]
  | iconst1 => [0x04]
  | iconst2 => [0x05]
  | iconst3 => [0x06]
  | iconst4 => [0x07]
  | iconst5 => [0x08]
  | lconst0 => [0x09]
  | lconst1 => [0x0A]
  | fconst0 => [0x0B]
  | fconst1 => [0x0C]
  | fconst2 => [0x0D]
  | dconst0 => [0x0E]
  | dconst1 => [0x0F]
  | bipush value => [0x10, value.toUInt8]
  | sipush value => 0x11 :: Bytes.ofWord16 value.toUInt16
  | ldc index => [0x12, index]
  | ldcW index => 0x13 :: Bytes.ofWord16 index
  | ldc2W index => 0x14 :: Bytes.ofWord16 index
  | aload0 => [0x2A]
  | aload1 => [0x2B]
  | dup => [0x59]
  | ireturn => [0xAC]
  | lreturn => [0xAD]
  | freturn => [0xAE]
  | dreturn => [0xAF]
  | areturn => [0xB0]
  | .return => [0xB1]
  | invokespecial index => 0xB7 :: Bytes.ofWord16 index
  | new index => 0xBB :: Bytes.ofWord16 index
  | athrow => [0xBF]

/-- The bytes of a list of instructions. -/
def encodeAll (is : List Instruction) : Bytes := is.flatMap encode

/-- Reads one instruction off the front of a code array. -/
def decode : Bytes → Option (Instruction × Bytes)
  | 0x00 :: bs => some (nop, bs)
  | 0x01 :: bs => some (aconstNull, bs)
  | 0x02 :: bs => some (iconstM1, bs)
  | 0x03 :: bs => some (iconst0, bs)
  | 0x04 :: bs => some (iconst1, bs)
  | 0x05 :: bs => some (iconst2, bs)
  | 0x06 :: bs => some (iconst3, bs)
  | 0x07 :: bs => some (iconst4, bs)
  | 0x08 :: bs => some (iconst5, bs)
  | 0x09 :: bs => some (lconst0, bs)
  | 0x0A :: bs => some (lconst1, bs)
  | 0x0B :: bs => some (fconst0, bs)
  | 0x0C :: bs => some (fconst1, bs)
  | 0x0D :: bs => some (fconst2, bs)
  | 0x0E :: bs => some (dconst0, bs)
  | 0x0F :: bs => some (dconst1, bs)
  | 0x10 :: b :: bs => some (bipush b.toInt8, bs)
  | 0x11 :: b :: c :: bs => some (sipush (Bytes.word16 b c).toInt16, bs)
  | 0x12 :: b :: bs => some (ldc b, bs)
  | 0x13 :: b :: c :: bs => some (ldcW (Bytes.word16 b c), bs)
  | 0x14 :: b :: c :: bs => some (ldc2W (Bytes.word16 b c), bs)
  | 0x2A :: bs => some (aload0, bs)
  | 0x2B :: bs => some (aload1, bs)
  | 0x59 :: bs => some (dup, bs)
  | 0xAC :: bs => some (ireturn, bs)
  | 0xAD :: bs => some (lreturn, bs)
  | 0xAE :: bs => some (freturn, bs)
  | 0xAF :: bs => some (dreturn, bs)
  | 0xB0 :: bs => some (areturn, bs)
  | 0xB1 :: bs => some (.return, bs)
  | 0xB7 :: b :: c :: bs => some (invokespecial (Bytes.word16 b c), bs)
  | 0xBB :: b :: c :: bs => some (new (Bytes.word16 b c), bs)
  | 0xBF :: bs => some (athrow, bs)
  | _ => none

/-- Reads instructions behind `position` bytes of already read ones, which are given
backwards.  Every instruction takes a byte, so `fuel` bytes are read in `fuel` steps. -/
def decodeOnto : Nat → List Instruction → Nat → Bytes → Except Nat (List Instruction)
  | _, acc, _, [] => .ok acc.reverse
  | 0, _, position, _ :: _ => .error position
  | fuel + 1, acc, position, b :: bs =>
    match decode (b :: bs) with
    | some (i, rest) => decodeOnto fuel (i :: acc) (position + i.size) rest
    | none => .error position

/-- Reads a whole code array, or tells the position of the first instruction whose opcode is
unknown or whose operand is cut short. -/
def decodeAll (bs : Bytes) : Except Nat (List Instruction) := decodeOnto bs.length [] 0 bs

@[simp] theorem length_encode (i : Instruction) : i.encode.length = i.size := by
  cases i <;> rfl

@[simp] theorem encodeAll_nil : encodeAll [] = [] := rfl

@[simp] theorem encodeAll_cons (i : Instruction) (is : List Instruction) :
    encodeAll (i :: is) = i.encode ++ encodeAll is := by
  simp [encodeAll]

end Instruction

end Defuse
