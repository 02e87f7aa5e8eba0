import Defuse.Class.Pool

/-!
# Class files

* `Attribute`, `Member`, `ClassFile` — the parts of a class file.  Counts are stored beside
  the lists they count, and written as they are stored;
* `ClassFile.create` — an empty class;
* `ClassFile.synchronised` — every count set to the length of its list;
* `ClassFile.findMethod` — the position of a method with a name and a descriptor;
* `ClassFile.parse`, `ClassFile.toBytes` — the two directions of the format.
-/

namespace Defuse

/-- A named piece of data whose inside is not looked at. -/
structure Attribute where
  /-- The number of the name. -/
  nameIndex : UInt16
  /-- The stored length. -/
  length : UInt32
  /-- The data. -/
  info : Bytes
deriving DecidableEq, Repr, Inhabited

/-- A field or a method. -/
structure Member where
  /-- The access flags. -/
  flags : UInt16
  /-- The number of the name. -/
  nameIndex : UInt16
  /-- The number of the descriptor. -/
  descriptorIndex : UInt16
  /-- The stored count of attributes. -/
  attributesCount : UInt16
  /-- The attributes. -/
  attributes : List Attribute
deriving DecidableEq, Repr, Inhabited

/-- A class file. -/
structure ClassFile where
  /-- The minor version. -/
  minor : UInt16
  /-- The major version. -/
  major : UInt16
  /-- The constant pool. -/
  pool : ConstantPool
  /-- The access flags. -/
  flags : UInt16
  /-- The number of the class itself. -/
  thisClass : UInt16
  /-- The number of the class above it. -/
  superClass : UInt16
  /-- The stored count of interfaces. -/
  interfacesCount : UInt16
  /-- The numbers of the interfaces. -/
  interfaces : List UInt16
  /-- The stored count of fields. -/
  fieldsCount : UInt16
  /-- The fields. -/
  fields : List Member
  /-- The stored count of methods. -/
  methodsCount : UInt16
  /-- The methods. -/
  methods : List Member
  /-- The stored count of attributes. -/
  attributesCount : UInt16
  /-- The attributes. -/
  attributes : List Attribute
deriving DecidableEq, Repr, Inhabited

/-! ### Attributes -/

namespace Attribute

/-- Data under a name. -/
def create (nameIndex : UInt16) (info : Bytes) : Attribute :=
  ⟨nameIndex, info.length.toUInt32, info⟩

/-- The name, where the pool has one. -/
def name? (a : Attribute) (p : ConstantPool) : Option String := p.text? a.nameIndex

/-- Reads an attribute. -/
def read : Reader ReadError Attribute := do
  let nameIndex ← Reader.word16 .endOfInput
  let length ← Reader.word32 .endOfInput
  let info ← Reader.bytes .endOfInput length.toNat
  return ⟨nameIndex, length, info⟩

/-- The bytes of an attribute. -/
def write (a : Attribute) : Bytes :=
  Bytes.ofWord16 a.nameIndex ++ Bytes.ofWord32 a.length ++ a.info

end Attribute

/-! ### Members -/

namespace Member

/-- The flag of a method that belongs to the class and not to an object. -/
def staticFlag : UInt16 := 0x0008

/-- The flag of a method with a body outside the class file. -/
def nativeFlag : UInt16 := 0x0100

/-- The flag of a method without a body. -/
def abstractFlag : UInt16 := 0x0400

/-- Whether a method belongs to the class and not to an object. -/
def isStatic (m : Member) : Bool := m.flags &&& staticFlag ≠ 0

/-- The member with its count set to the length of its list. -/
def synchronised (m : Member) : Member :=
  { m with attributesCount := m.attributes.length.toUInt16 }

/-- Whether a member has a name and a descriptor. -/
def isNamed (m : Member) (p : ConstantPool) (name descriptor : String) : Bool :=
  p.text? m.nameIndex = some name && p.text? m.descriptorIndex = some descriptor

/-- Reads a member. -/
def read : Reader ReadError Member := do
  let flags ← Reader.word16 .endOfInput
  let nameIndex ← Reader.word16 .endOfInput
  let descriptorIndex ← Reader.word16 .endOfInput
  let attributesCount ← Reader.word16 .endOfInput
  let attributes ← Reader.many Attribute.read attributesCount.toNat
  return { flags, nameIndex, descriptorIndex, attributesCount, attributes }

/-- The bytes of a member. -/
def write (m : Member) : Bytes :=
  Bytes.ofWord16 m.flags ++ Bytes.ofWord16 m.nameIndex ++ Bytes.ofWord16 m.descriptorIndex ++
    Bytes.ofWord16 m.attributesCount ++ m.attributes.flatMap Attribute.write

end Member

/-! ### Classes -/

/-- Why a class file cannot be written. -/
inductive WriteError where
  /-- A text is longer than the format can count. -/
  | textTooLong
deriving DecidableEq, Repr

namespace ClassFile

/-- The four bytes that a class file starts with. -/
def magic : Bytes := [0xCA, 0xFE, 0xBA, 0xBE]

/-- An empty public class of version 52. -/
def create (thisName superName : String) : Except PoolFull ClassFile :=
  let both : ConstantPool.Edit (UInt16 × UInt16) := do
    let thisClass ← ConstantPool.className thisName
    let superClass ← ConstantPool.className superName
    return (thisClass, superClass)
  match both.run.run .empty with
  | (.error e, _) => .error e
  | (.ok (thisClass, superClass), pool) =>
    .ok
      { minor := 0, major := 52, pool, flags := 0x0021, thisClass, superClass,
        interfacesCount := 0, interfaces := [], fieldsCount := 0, fields := [],
        methodsCount := 0, methods := [], attributesCount := 0, attributes := [] }

/-- The name of the class. -/
def name? (c : ClassFile) : Option String := c.pool.classText? c.thisClass

/-- The class with every count set to the length of its list. -/
def synchronised (c : ClassFile) : ClassFile :=
  { c with
    pool := { c.pool with storedSize := (c.pool.slots.length + 1).toUInt16 }
    interfacesCount := c.interfaces.length.toUInt16
    fieldsCount := c.fields.length.toUInt16
    fields := c.fields.map Member.synchronised
    methodsCount := c.methods.length.toUInt16
    methods := c.methods.map Member.synchronised
    attributesCount := c.attributes.length.toUInt16 }

/-- The position of the first method with a name and a descriptor. -/
def findMethod (c : ClassFile) (name descriptor : String) : Option Nat :=
  c.methods.findIdx? (·.isNamed c.pool name descriptor)

/-- Reads the four bytes that a class file starts with. -/
def readMagic : Reader ReadError Unit := do
  let found ← Reader.bytes .endOfInput 4
  if found = magic then return () else throw .badMagic

/-- Reads a class file. -/
def read : Reader ReadError ClassFile := do
  readMagic
  let minor ← Reader.word16 .endOfInput
  let major ← Reader.word16 .endOfInput
  let pool ← ConstantPool.read
  let flags ← Reader.word16 .endOfInput
  let thisClass ← Reader.word16 .endOfInput
  let superClass ← Reader.word16 .endOfInput
  let interfacesCount ← Reader.word16 .endOfInput
  let interfaces ← Reader.many (Reader.word16 .endOfInput) interfacesCount.toNat
  let fieldsCount ← Reader.word16 .endOfInput
  let fields ← Reader.many Member.read fieldsCount.toNat
  let methodsCount ← Reader.word16 .endOfInput
  let methods ← Reader.many Member.read methodsCount.toNat
  let attributesCount ← Reader.word16 .endOfInput
  let attributes ← Reader.many Attribute.read attributesCount.toNat
  return {
    minor, major, pool, flags, thisClass, superClass, interfacesCount, interfaces,
    fieldsCount, fields, methodsCount, methods, attributesCount, attributes }

/-- Reads the class file that a byte string starts with. -/
def parse (bs : Bytes) : Except ClassError ClassFile :=
  match read bs with
  | .ok (c, _) => .ok c
  | .error e => .error (e.located bs.length)

/-- The bytes of a class file whose texts are short enough. -/
def write (c : ClassFile) : Bytes :=
  magic ++ Bytes.ofWord16 c.minor ++ Bytes.ofWord16 c.major ++ c.pool.write ++
    Bytes.ofWord16 c.flags ++ Bytes.ofWord16 c.thisClass ++ Bytes.ofWord16 c.superClass ++
    Bytes.ofWord16 c.interfacesCount ++ c.interfaces.flatMap Bytes.ofWord16 ++
    Bytes.ofWord16 c.fieldsCount ++ c.fields.flatMap Member.write ++
    Bytes.ofWord16 c.methodsCount ++ c.methods.flatMap Member.write ++
    Bytes.ofWord16 c.attributesCount ++ c.attributes.flatMap Attribute.write

/-- The bytes of a class file. -/
def toBytes (c : ClassFile) : Except WriteError Bytes :=
  if c.pool.isWritable then .ok c.write else .error .textTooLong

end ClassFile

end Defuse
