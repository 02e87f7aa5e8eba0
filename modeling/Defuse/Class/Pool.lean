import Defuse.Class.Constant

/-!
# The constant pool

The constants of a class file, numbered from one; a wide constant takes two numbers.

* `ConstantPool`, with `at?`, `text?`, `classText?` — what a number designates;
* `ConstantPool.intern` — the number of a constant, which is appended where it is missing;
* `ConstantPool.utf8`, `ConstantPool.className`, … — the same for the things that
  constants stand for;
* `ConstantPool.read`, `ConstantPool.write` — the two directions of the format.
-/

namespace Defuse

/-- A constant pool. -/
structure ConstantPool where
  /-- The count that is stored in front of the constants: one more than the highest number. -/
  storedSize : UInt16
  /-- The constants, with the unusable second slots of wide ones. -/
  slots : List Constant
deriving DecidableEq, Repr, Inhabited

/-- There is no room for another constant. -/
inductive PoolFull where
  | full
deriving DecidableEq, Repr

/-- The text of the error. -/
def PoolFull.message : PoolFull → String
  | full => "constant pool is full"

namespace ConstantPool

/-- The pool of a class that refers to nothing. -/
def empty : ConstantPool := ⟨1, []⟩

/-! ### What a number designates -/

/-- The constant of a number. -/
def at? (p : ConstantPool) (index : UInt16) : Option Constant :=
  if index = 0 then none else p.slots[index.toNat - 1]?

/-- The stored bytes of a text. -/
def bytes? (p : ConstantPool) (index : UInt16) : Option Bytes :=
  match p.at? index with
  | some (.utf8 bytes) => some bytes
  | _ => none

/-- A text. -/
def text? (p : ConstantPool) (index : UInt16) : Option String :=
  (p.bytes? index).map Text.ModifiedUtf8.decode

/-- The name of a class. -/
def classText? (p : ConstantPool) (index : UInt16) : Option String :=
  match p.at? index with
  | some (.className name) => p.text? name
  | _ => none

/-- The descriptor of a method that is referred to. -/
def methodDescriptor? (p : ConstantPool) (index : UInt16) : Option String :=
  match p.at? index with
  | some (.methodRef _ nameAndType) =>
    match p.at? nameAndType with
    | some (.nameAndType _ descriptor) => p.text? descriptor
    | _ => none
  | _ => none

/-! ### Adding constants -/

/-- A change of a pool that yields a value or finds no room.  What was appended before the
room ran out stays. -/
abbrev Edit (α : Type) := ExceptT PoolFull (StateM ConstantPool) α

/-- The highest number a constant can have; the stored count is one more. -/
def maxIndex : Nat := 65534

/-- Appends a constant and yields its number. -/
def push (c : Constant) : Edit UInt16 := fun p =>
  let slots := p.slots ++ c.slots
  if maxIndex < p.slots.length + c.slots.length then (.error .full, p)
  else (.ok (p.slots.length + 1).toUInt16, ⟨(slots.length + 1).toUInt16, slots⟩)

/-- The first number of a constant. -/
def find? (p : ConstantPool) (c : Constant) : Option UInt16 :=
  (p.slots.findIdx? (· = c)).map fun i => (i + 1).toUInt16

/-- The first number of a constant, which is appended where it is missing. -/
def intern (c : Constant) : Edit UInt16 := fun p =>
  match p.find? c with
  | some index => (.ok index, p)
  | none => push c p

/-- A text. -/
def utf8 (text : String) : Edit UInt16 := intern (.utf8 (Text.ModifiedUtf8.encode text))

/-- A class with an internal name. -/
def className (name : String) : Edit UInt16 := do
  intern (.className (← utf8 name))

/-- A string. -/
def string (text : String) : Edit UInt16 := do
  intern (.string (← utf8 text))

/-- An `int`. -/
def integer (value : Int32) : Edit UInt16 := intern (.integer value)

/-- A `long`. -/
def long (value : Int64) : Edit UInt16 := intern (.long value)

/-- A `float`, by its bits. -/
def float (bits : UInt32) : Edit UInt16 := intern (.float bits)

/-- A `double`, by its bits. -/
def double (bits : UInt64) : Edit UInt16 := intern (.double bits)

/-- A name with a descriptor. -/
def nameAndType (name descriptor : String) : Edit UInt16 := do
  let nameIndex ← utf8 name
  let descriptorIndex ← utf8 descriptor
  intern (.nameAndType nameIndex descriptorIndex)

/-- A method of a class. -/
def methodRef (owner name descriptor : String) : Edit UInt16 := do
  let ownerIndex ← className owner
  let nameAndTypeIndex ← nameAndType name descriptor
  intern (.methodRef ownerIndex nameAndTypeIndex)

/-! ### The format -/

/-- Reads constants behind already read slots, which are given backwards, until `left`
further slots are taken; the last constant may take one more. -/
def readSlots : List Constant → Nat → Reader ReadError (List Constant)
  | acc, 0, bs => .ok (acc.reverse, bs)
  | acc, left + 1, bs =>
    match Constant.read bs with
    | .error e => .error e
    | .ok (c, bs) =>
      if c.isWide then
        match left with
        | 0 => .ok ((.unusable :: c :: acc).reverse, bs)
        | left + 1 => readSlots (.unusable :: c :: acc) left bs
      else readSlots (c :: acc) left bs

/-- Reads the stored count and the constants. -/
def read : Reader ReadError ConstantPool := do
  let storedSize ← Constant.index
  let slots ← readSlots [] (storedSize.toNat - 1)
  return ⟨storedSize, slots⟩

/-- The stored count and the constants. -/
def write (p : ConstantPool) : Bytes :=
  Bytes.ofWord16 p.storedSize ++ p.slots.flatMap Constant.write

/-- Whether the format has room for every constant. -/
def isWritable (p : ConstantPool) : Bool := p.slots.all Constant.isWritable

end ConstantPool

end Defuse
