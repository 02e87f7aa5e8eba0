import Defuse.Class.ClassFile

/-!
# Method bodies

The data of the attribute `Code`: the sizes of the operand stack and of the local
variables, the code array, the exception handlers, and attributes of its own.

* `MethodBody`, `MethodBody.create`;
* `MethodBody.read`, `MethodBody.write` — the two directions of the format.
-/

namespace Defuse

/-- An exception handler: the part of the code it guards, where it starts, what it catches. -/
structure Handler where
  /-- The first guarded position. -/
  start : UInt16
  /-- The position behind the last guarded one. -/
  stop : UInt16
  /-- Where the handler starts. -/
  target : UInt16
  /-- The number of the caught class, zero for all. -/
  caught : UInt16
deriving DecidableEq, Repr

/-- A method body. -/
structure MethodBody where
  /-- The size of the operand stack. -/
  maxStack : UInt16
  /-- The size of the local variables. -/
  maxLocals : UInt16
  /-- The code array. -/
  code : Bytes
  /-- The exception handlers. -/
  handlers : List Handler
  /-- The attributes. -/
  attributes : List Attribute
deriving DecidableEq, Repr

namespace Handler

/-- Reads an exception handler. -/
def read : Reader ReadError Handler := do
  let start ← Reader.word16 .endOfInput
  let stop ← Reader.word16 .endOfInput
  let target ← Reader.word16 .endOfInput
  let caught ← Reader.word16 .endOfInput
  return { start, stop, target, caught }

/-- The bytes of an exception handler. -/
def write (h : Handler) : Bytes :=
  Bytes.ofWord16 h.start ++ Bytes.ofWord16 h.stop ++ Bytes.ofWord16 h.target ++
    Bytes.ofWord16 h.caught

end Handler

namespace MethodBody

/-- The name of the attribute that holds a method body. -/
def attributeName : String := "Code"

/-- The attributes of a body that refer to positions in its code. -/
def positional : List String :=
  ["LineNumberTable", "LocalVariableTable", "LocalVariableTypeTable", "StackMapTable",
   "RuntimeVisibleTypeAnnotations", "RuntimeInvisibleTypeAnnotations"]

/-- A body without exception handlers and attributes. -/
def create (maxStack maxLocals : UInt16) (code : Bytes) : MethodBody :=
  { maxStack, maxLocals, code, handlers := [], attributes := [] }

/-- Reads a method body. -/
def read : Reader ReadError MethodBody := do
  let maxStack ← Reader.word16 .endOfInput
  let maxLocals ← Reader.word16 .endOfInput
  let codeLength ← Reader.word32 .endOfInput
  let code ← Reader.bytes .endOfInput codeLength.toNat
  let handlersCount ← Reader.word16 .endOfInput
  let handlers ← Reader.many Handler.read handlersCount.toNat
  let attributesCount ← Reader.word16 .endOfInput
  let attributes ← Reader.many Attribute.read attributesCount.toNat
  return { maxStack, maxLocals, code, handlers, attributes }

/-- Reads the method body that the data of an attribute starts with. -/
def parse (info : Bytes) : Except ClassError MethodBody :=
  match read info with
  | .ok (b, _) => .ok b
  | .error e => .error (e.located info.length)

/-- The bytes of a method body. -/
def write (b : MethodBody) : Bytes :=
  Bytes.ofWord16 b.maxStack ++ Bytes.ofWord16 b.maxLocals ++
    Bytes.ofWord32 b.code.length.toUInt32 ++ b.code ++
    Bytes.ofWord16 b.handlers.length.toUInt16 ++ b.handlers.flatMap Handler.write ++
    Bytes.ofWord16 b.attributes.length.toUInt16 ++ b.attributes.flatMap Attribute.write

end MethodBody

end Defuse
