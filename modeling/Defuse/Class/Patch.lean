import Defuse.Body.Compile
import Defuse.Class.MethodBody

/-!
# Replacing the body of a method

* `PatchError` — why a body cannot be replaced;
* `MethodBody.renewed` — a body with new code: what refers to positions in the old code goes;
* `Member.withBody` — a method with a body, which is then no longer abstract or native;
* `patch` — the bytes of a class whose method has a new body, compiled from a source text.

New constants come behind those of the class, so all that is not replaced is written back as
it was read.
-/

namespace Defuse

/-- Why a class file cannot be read or written. -/
inductive Malformation where
  | unreadable (cause : ClassError)
  | unwritable (cause : WriteError)
deriving DecidableEq, Repr

/-- Why the body of a method cannot be replaced. -/
inductive PatchError where
  | malformed (cause : Malformation)
  | methodNotFound (name descriptor : String)
  | compileFailed (cause : CompileError)
deriving DecidableEq, Repr

/-- The text of a cause. -/
def ClassError.message : ClassError → String
  | badMagic => "not a class file"
  | endOfInput => "unexpected end of the class file"
  | unknownTag _ tag => s!"unknown constant pool tag {tag}"

/-- The text of a cause. -/
def WriteError.message : WriteError → String
  | textTooLong => "a text is too long for a class file"

/-- The text of a cause. -/
def Malformation.message : Malformation → String
  | unreadable cause => cause.message
  | unwritable cause => cause.message

/-- The text of an error. -/
def PatchError.message : PatchError → String
  | malformed cause => "malformed class file: " ++ cause.message
  | methodNotFound name descriptor => "method " ++ name ++ descriptor ++ " not found"
  | compileFailed cause => cause.message

/-! ### Bodies -/

/-- A body with new code, without the exception handlers and without the attributes that
refer to positions in the old code. -/
def MethodBody.renewed (b : MethodBody) (p : ConstantPool) (g : GeneratedCode) : MethodBody where
  maxStack := g.maxStack
  maxLocals := g.maxLocals
  code := Instruction.encodeAll g.instructions
  handlers := []
  attributes := b.attributes.filter fun a =>
    match a.name? p with
    | some name => !positional.contains name
    | none => true

/-- The position of the first attribute that holds a body. -/
def Member.bodyPosition? (m : Member) (p : ConstantPool) : Option Nat :=
  m.attributes.findIdx? fun a => a.name? p = some MethodBody.attributeName

/-- The body to replace; a method without one has an empty one. -/
def Member.body (m : Member) (p : ConstantPool) : Except ClassError MethodBody :=
  match m.attributes.find? fun a => a.name? p = some MethodBody.attributeName with
  | some a => MethodBody.parse a.info
  | none => .ok (.create 0 0 [])

/-- A method with a body in place of the one at a position, or with its first body. -/
def Member.withBody (m : Member) (position? : Option Nat) (code : Attribute) : Member :=
  match position? with
  | some position => { m with attributes := m.attributes.set position code }
  | none =>
    { m with
      -- a method that gets a body for the first time is neither abstract nor native any more
      flags := m.flags &&& ~~~(abstractFlag ||| nativeFlag)
      attributes := m.attributes ++ [code] }

/-! ### Classes -/

/-- The class whose method at a position has new code. -/
def ClassFile.withCode (c : ClassFile) (position : Nat) (method : Member) (nameIndex : UInt16)
    (g : GeneratedCode) : Except ClassError ClassFile := do
  let body ← method.body c.pool
  let code := Attribute.create nameIndex (body.renewed c.pool g).write
  let method := method.withBody (method.bodyPosition? c.pool) code
  return { c with methods := c.methods.set position method }.synchronised

/-- The code of a source text, and the number of the name of its attribute. -/
def generated (compiler : Compiler) (method : MethodContext) (source : String) :
    CompileM (GeneratedCode × UInt16) := do
  let g ← compiler method source
  let nameIndex ← CompileM.intern (ConstantPool.utf8 MethodBody.attributeName)
  return (g, nameIndex)

/-- The bytes of a class in which the method with a name and a descriptor has the body that
a compiler makes of a source text. -/
def patch (compiler : Compiler) (bytes : Bytes) (name descriptor source : String) :
    Except PatchError Bytes := do
  let c ← (ClassFile.parse bytes).mapError fun e => .malformed (.unreadable e)
  -- a position that was found is inside the list, so the second search does not fail
  let missing := PatchError.methodNotFound name descriptor
  let some position := c.findMethod name descriptor | throw missing
  let some method := c.methods[position]? | throw missing
  let context : MethodContext := { name, descriptor, isStatic := method.isStatic }
  match (generated compiler context source).run.run c.pool with
  | (.error e, _) => throw (.compileFailed e)
  | (.ok (g, nameIndex), pool) =>
    let c ← ({ c with pool }.withCode position method nameIndex g).mapError
      fun e => .malformed (.unreadable e)
    c.toBytes.mapError fun e => .malformed (.unwritable e)

end Defuse
