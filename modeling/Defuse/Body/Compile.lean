import Defuse.Body.Parse
import Defuse.Body.Value
import Defuse.Code.Stack

/-!
# From a body to code

A statement becomes a few instructions in a row, and the constants that they refer to are
appended to the pool of the class.

* `MethodContext`, `GeneratedCode`, `Compiler` — what is asked for and what is given;
* `Value.load` … — the instruction that pushes a value;
* `Value.loadAs` — the same for a value that is returned as a type, or why it cannot be;
* `Statement.code`, `generate` — statements;
* `compile` — source texts.
-/

namespace Defuse

/-- The method whose body is generated. -/
structure MethodContext where
  /-- Its name. -/
  name : String
  /-- Its descriptor. -/
  descriptor : String
  /-- Whether it takes no receiver. -/
  isStatic : Bool

/-- A generated body. -/
structure GeneratedCode where
  /-- The instructions. -/
  instructions : List Instruction
  /-- The size of the operand stack. -/
  maxStack : UInt16
  /-- The size of the local variables. -/
  maxLocals : UInt16
deriving DecidableEq, Repr

/-- A computation that appends constants to a pool and can fail; what was appended before it
failed stays. -/
abbrev CompileM (α : Type) := ExceptT CompileError (StateM ConstantPool) α

/-- Turns the source text of a body into code. -/
abbrev Compiler := MethodContext → String → CompileM GeneratedCode

namespace CompileM

variable {α : Type}

/-- Adds constants; a full pool is an error of generation. -/
def intern (edit : ConstantPool.Edit α) : CompileM α :=
  ExceptT.adapt (fun | .full => .generation .poolFull) edit

/-- Fails for what a value is. -/
def mistyped (e : TypeError) : CompileM α := throw (.type e)

/-- Fails for what a class file cannot hold. -/
def unsupported (e : GenerationError) : CompileM α := throw (.generation e)

end CompileM

open CompileM

/-! ### Pushing a constant -/

/-- Pushes the constant of a number. -/
def loadConstant (index : UInt16) : Instruction :=
  if index ≤ 255 then .ldc index.toUInt8 else .ldcW index

/-- Pushes an `int`. -/
def loadInt (v : Int32) : CompileM Instruction :=
  if v = -1 then return .iconstM1
  else if v = 0 then return .iconst0
  else if v = 1 then return .iconst1
  else if v = 2 then return .iconst2
  else if v = 3 then return .iconst3
  else if v = 4 then return .iconst4
  else if v = 5 then return .iconst5
  else if -128 ≤ v ∧ v ≤ 127 then return .bipush v.toInt8
  else if -32768 ≤ v ∧ v ≤ 32767 then return .sipush v.toInt16
  else return loadConstant (← intern (ConstantPool.integer v))

/-- Pushes a `long`. -/
def loadLong (v : Int64) : CompileM Instruction :=
  if v = 0 then return .lconst0
  else if v = 1 then return .lconst1
  else return .ldc2W (← intern (ConstantPool.long v))

/-- Pushes a `float`.  Only the positive zero has an instruction of its own. -/
def loadFloat (bits : UInt32) : CompileM Instruction :=
  if bits = 0 then return .fconst0
  else if bits = floatOfInt 1 then return .fconst1
  else if bits = floatOfInt 2 then return .fconst2
  else return loadConstant (← intern (ConstantPool.float bits))

/-- Pushes a `double`.  Only the positive zero has an instruction of its own. -/
def loadDouble (bits : UInt64) : CompileM Instruction :=
  if bits = 0 then return .dconst0
  else if bits = doubleOfInt 1 then return .dconst1
  else return .ldc2W (← intern (ConstantPool.double bits))

/-- Pushes a string. -/
def loadString (text : String) : CompileM Instruction :=
  if 65535 < (Text.ModifiedUtf8.encode text).length then unsupported .textTooLong
  else return loadConstant (← intern (ConstantPool.string text))

/-! ### Returning -/

/-- The classes and interfaces that a string is an instance of. -/
def stringTypes : List String :=
  ["java/lang/String", "java/lang/Object", "java/lang/CharSequence", "java/lang/Comparable",
   "java/io/Serializable"]

/-- A value does not fit the type it is returned as. -/
def Value.mismatch {α : Type} (v : Value) (t : JavaType) : CompileM α :=
  mistyped (.notConvertible v.type t.sourceName)

/-- Pushes a value converted to a type of small whole numbers. -/
def Value.loadSmall (v : Value) (t : JavaType) (least greatest : Int32) :
    CompileM Instruction :=
  match v.promoted? with
  | some (.int n) =>
    if n < least ∨ greatest < n then mistyped (.lossy t.sourceName) else loadInt n
  | _ => v.mismatch t

/-- Pushes a value converted to a type, and the instruction that returns it. -/
def Value.loadAs (v : Value) (t : JavaType) : CompileM (List Instruction) :=
  match t with
  | .reference name =>
    match v with
    | .null => return [.aconstNull, .areturn]
    | .string text =>
      if stringTypes.contains name then return [← loadString text, .areturn] else v.mismatch t
    | _ => v.mismatch t
  | .array _ => if v = .null then return [.aconstNull, .areturn] else v.mismatch t
  | .boolean =>
    match v with
    | .boolean b => return [if b then .iconst1 else .iconst0, .ireturn]
    | _ => v.mismatch t
  | .int =>
    match v.promoted? with
    | some (.int n) => return [← loadInt n, .ireturn]
    | _ => v.mismatch t
  | .byte => return [← v.loadSmall t (-128) 127, .ireturn]
  | .short => return [← v.loadSmall t (-32768) 32767, .ireturn]
  | .char => return [← v.loadSmall t 0 65535, .ireturn]
  | .long =>
    match v.promoted? with
    | some (.int n) => return [← loadLong n.toInt64, .lreturn]
    | some (.long n) => return [← loadLong n, .lreturn]
    | _ => v.mismatch t
  | .float =>
    match v.promoted? with
    -- a number with twice as many digits would lose some of them
    | some (.double _) | none => v.mismatch t
    | some n => return [← loadFloat n.toFloat, .freturn]
  | .double =>
    match v.promoted? with
    | some n => return [← loadDouble n.toDouble, .dreturn]
    | none => v.mismatch t
  | .void => mistyped .unexpectedValue

/-! ### Statements -/

/-- The internal name of a class; a name without a point is that of a class of
`java.lang`. -/
def internalName (name : String) : String :=
  if name.contains '.' then name.map fun c => if c = '.' then '/' else c
  else "java/lang/" ++ name

/-- Pushes the message of a thrown object: a string or null. -/
def loadMessage (e : Expression) : CompileM Instruction := do
  match ← (e.value : Except CompileError Value) with
  | .string text => loadString text
  | .null => return .aconstNull
  | v => mistyped (.notConvertible v.type "String")

/-- Throws a new object, which is made without arguments or from a message. -/
def throwCode (name : String) (descriptor : String) (message : CompileM (List Instruction)) :
    CompileM (List Instruction) := do
  let owner := internalName name
  -- the class is added before the message, and the constructor after it
  let made := Instruction.new (← intern (ConstantPool.className owner))
  let argument ← message
  let constructor :=
    Instruction.invokespecial (← intern (ConstantPool.methodRef owner "<init>" descriptor))
  return made :: .dup :: argument ++ [constructor, .athrow]

/-- The code of a statement in a method that returns a type. -/
def Statement.code (returned : JavaType) : Statement → CompileM (List Instruction)
  | .return none => if returned = .void then return [.return] else mistyped .missingValue
  | .return (some e) =>
    if returned = .void then mistyped .unexpectedValue
    else do
      let v ← (e.value : Except CompileError Value)
      v.loadAs returned
  | .throw (.new name []) => throwCode name "()V" (return [])
  | .throw (.new name [message]) =>
    throwCode name "(Ljava/lang/String;)V" (return [← loadMessage message])
  | .throw (.new name arguments) => unsupported (.arguments name arguments.length)
  | .throw _ => unsupported .throwWithoutNew

/-- The code of statements.  Every statement leaves the method, so there may be only one;
without any, a method that returns nothing returns. -/
def bodyCode (returned : JavaType) : List Statement → CompileM (List Instruction)
  | [] => if returned = .void then return [.return] else mistyped .missingReturn
  | [s] => s.code returned
  | s :: _ => do
    let _ ← s.code returned
    mistyped .unreachable

/-- The slots of the local variables that hold the receiver and the parameters. -/
def localSlots (isStatic : Bool) (m : MethodType) : UInt16 :=
  (min 65535 ((if isStatic then 0 else 1) + m.parameterSlots)).toUInt16

/-- The code of a list of statements. -/
def generate (statements : List Statement) (method : MethodContext) : CompileM GeneratedCode :=
  match MethodType.read method.descriptor with
  | none => unsupported (.invalidDescriptor method.descriptor)
  | some type => do
    let instructions ← bodyCode type.returned statements
    return {
      instructions
      maxStack := maxStack (← get) instructions
      maxLocals := localSlots method.isStatic type }

/-- The code of a source text. -/
def compile : Compiler := fun method source => do
  let statements ← (parseBody source : Except CompileError (List Statement))
  generate statements method

end Defuse
