import Defuse.Bytes
import Defuse.Text.ModifiedUtf8

/-!
# Constants

An entry of the constant pool of a class file: a tag of one byte, then its fields.

* `Constant`, with `tag?` and `isWide`;
* `Constant.read`, `Constant.write` — the two directions of the format;
* `ClassError` — why a class file cannot be read.
-/

namespace Defuse

/-- A constant.  Floating-point values are kept as their bits, and text as stored bytes, so
that what is not touched is written back unchanged. -/
inductive Constant where
  | utf8 (bytes : Bytes)
  | integer (value : Int32)
  | float (bits : UInt32)
  | long (value : Int64)
  | double (bits : UInt64)
  | className (name : UInt16)
  | string (text : UInt16)
  | fieldRef (owner nameAndType : UInt16)
  | methodRef (owner nameAndType : UInt16)
  | interfaceMethodRef (owner nameAndType : UInt16)
  | nameAndType (name descriptor : UInt16)
  | methodHandle (kind : UInt8) (target : UInt16)
  | methodType (descriptor : UInt16)
  | dynamic (bootstrap nameAndType : UInt16)
  | invokeDynamic (bootstrap nameAndType : UInt16)
  | moduleName (name : UInt16)
  | packageName (name : UInt16)
  /-- The second slot of a `long` or `double`: it takes an index but no bytes. -/
  | unusable
deriving DecidableEq, Repr, Inhabited

/-- Why a class file, or a part of one, cannot be read. -/
inductive ClassError where
  /-- The first four bytes are not those of a class file. -/
  | badMagic
  /-- The input ends early. -/
  | endOfInput
  /-- No constant has this tag; `place` bytes lie before it. -/
  | unknownTag (place : Nat) (tag : UInt8)
deriving DecidableEq, Repr

/-- What a reader meets: as `ClassError`, but a tag is placed by the bytes from it to the
end of the input, which a reader knows without counting. -/
inductive ReadError where
  | badMagic
  | endOfInput
  | unknownTag (left : Nat) (tag : UInt8)
deriving DecidableEq, Repr

/-- Places an error in an input of `total` bytes. -/
def ReadError.located (total : Nat) : ReadError → ClassError
  | badMagic => .badMagic
  | endOfInput => .endOfInput
  | unknownTag left tag => .unknownTag (total - left) tag

namespace Constant

/-- The byte that introduces a constant. -/
def tag? : Constant → Option UInt8
  | utf8 _ => some 1
  | integer _ => some 3
  | float _ => some 4
  | long _ => some 5
  | double _ => some 6
  | className _ => some 7
  | string _ => some 8
  | fieldRef .. => some 9
  | methodRef .. => some 10
  | interfaceMethodRef .. => some 11
  | nameAndType .. => some 12
  | methodHandle .. => some 15
  | methodType _ => some 16
  | dynamic .. => some 17
  | invokeDynamic .. => some 18
  | moduleName _ => some 19
  | packageName _ => some 20
  | unusable => none

/-- Whether a constant takes two slots of the pool. -/
def isWide : Constant → Bool
  | long _ | double _ => true
  | _ => false

/-- The slots a constant takes. -/
def slots (c : Constant) : List Constant := if c.isWide then [c, unusable] else [c]

/-- Whether the format has room for a constant: text is counted in a word of two bytes. -/
def isWritable : Constant → Bool
  | utf8 bytes => bytes.length < 0x10000
  | _ => true

/-! ### Writing -/

/-- The bytes behind the tag. -/
def writeFields : Constant → Bytes
  | utf8 bytes => Bytes.ofWord16 bytes.length.toUInt16 ++ bytes
  | integer value => Bytes.ofWord32 value.toUInt32
  | float bits => Bytes.ofWord32 bits
  | long value => Bytes.ofWord64 value.toUInt64
  | double bits => Bytes.ofWord64 bits
  | className a | string a | methodType a | moduleName a | packageName a => Bytes.ofWord16 a
  | fieldRef a b | methodRef a b | interfaceMethodRef a b | nameAndType a b | dynamic a b
  | invokeDynamic a b => Bytes.ofWord16 a ++ Bytes.ofWord16 b
  | methodHandle kind a => kind :: Bytes.ofWord16 a
  | unusable => []

/-- The bytes of a constant. -/
def write (c : Constant) : Bytes := c.tag?.toList ++ c.writeFields

/-! ### Reading -/

/-- The word of two bytes that comes next. -/
def index : Reader ReadError UInt16 := Reader.word16 .endOfInput

/-- Two words of two bytes. -/
def indexPair (make : UInt16 → UInt16 → Constant) : Reader ReadError Constant := do
  let a ← index
  let b ← index
  return make a b

/-- Reads the fields behind a tag. -/
def readFields (tag : UInt8) : Reader ReadError Constant :=
  match tag with
  | 1 => do
    let n ← index
    utf8 <$> Reader.bytes .endOfInput n.toNat
  | 3 => (fun w => integer w.toInt32) <$> Reader.word32 .endOfInput
  | 4 => float <$> Reader.word32 .endOfInput
  | 5 => (fun w => long w.toInt64) <$> Reader.word64 .endOfInput
  | 6 => double <$> Reader.word64 .endOfInput
  | 7 => className <$> index
  | 8 => string <$> index
  | 9 => indexPair fieldRef
  | 10 => indexPair methodRef
  | 11 => indexPair interfaceMethodRef
  | 12 => indexPair nameAndType
  | 15 => do
    let kind ← Reader.byte .endOfInput
    methodHandle kind <$> index
  | 16 => methodType <$> index
  | 17 => indexPair dynamic
  | 18 => indexPair invokeDynamic
  | 19 => moduleName <$> index
  | 20 => packageName <$> index
  | tag => fun rest => .error (.unknownTag (rest.length + 1) tag)

/-- Reads one constant. -/
def read : Reader ReadError Constant := do
  let tag ← Reader.byte .endOfInput
  readFields tag

theorem length_slots (c : Constant) : c.slots.length = if c.isWide then 2 else 1 := by
  unfold slots; split <;> rfl

theorem slots_ne_nil (c : Constant) : c.slots ≠ [] := by
  unfold slots; split <;> simp

end Constant

end Defuse
