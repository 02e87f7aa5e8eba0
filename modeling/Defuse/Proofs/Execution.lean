import Defuse.Proofs.StackTyping

namespace Defuse

/-!
# Running code

* `Operand` — the values on the operand stack of a running method;
* `Instruction.operand?` — what an instruction that pushes a constant pushes;
* `JavaType.result?` — what a method that returns a type makes of the value on top of the stack;
* `Instruction.step?` — what one instruction does;
* `exit?` — how a list of instructions leaves its method.
-/

/-- A value on the operand stack. -/
inductive Operand where
  | int (value : Int32)
  | long (value : Int64)
  | float (bits : UInt32)
  | double (bits : UInt64)
  | null
  | string (text : String)
  /-- A new object of a class. -/
  | object (owner : String)
deriving DecidableEq, Repr

/-- The type of a value. -/
def Operand.type : Operand → StackType
  | int _ => .int
  | long _ => .long
  | float _ => .float
  | double _ => .double
  | null | string _ | object _ => .reference

/-! ### Pushing a constant -/

/-- The value of a constant of one slot. -/
def Constant.operand? (p : ConstantPool) : Constant → Option Operand
  | integer value => some (.int value)
  | float bits => some (.float bits)
  | string text => (p.text? text).map .string
  | _ => none

/-- The value of a constant of two slots. -/
def Constant.wideOperand? : Constant → Option Operand
  | long value => some (.long value)
  | double bits => some (.double bits)
  | _ => none

namespace Instruction

/-- What an instruction that pushes a constant pushes.  The numbers in the code keep their
sign. -/
def operand? (p : ConstantPool) : Instruction → Option Operand
  | aconstNull => some .null
  | iconstM1 => some (.int (-1))
  | iconst0 => some (.int 0)
  | iconst1 => some (.int 1)
  | iconst2 => some (.int 2)
  | iconst3 => some (.int 3)
  | iconst4 => some (.int 4)
  | iconst5 => some (.int 5)
  | lconst0 => some (.long 0)
  | lconst1 => some (.long 1)
  | fconst0 => some (.float 0x00000000)
  | fconst1 => some (.float 0x3F800000)
  | fconst2 => some (.float 0x40000000)
  | dconst0 => some (.double 0x0000000000000000)
  | dconst1 => some (.double 0x3FF0000000000000)
  | bipush value => some (.int value.toInt32)
  | sipush value => some (.int value.toInt32)
  | ldc index => (p.at? index.toUInt16).bind (Constant.operand? p)
  | ldcW index => (p.at? index).bind (Constant.operand? p)
  | ldc2W index => (p.at? index).bind Constant.wideOperand?
  | _ => none

end Instruction

/-! ### Returning -/

/-- What a method that returns a small type leaves of an `int`. -/
def JavaType.narrow? (v : Int32) : JavaType → Option Int32
  | int => some v
  | byte => some v.toInt8.toInt32
  | short => some v.toInt16.toInt32
  | char => some (v &&& 0xFFFF)
  | boolean => some (v &&& 1)
  | _ => none

/-- What a method that returns a type makes of the value on top of the stack. -/
def JavaType.result? (t : JavaType) : Operand → Option Operand
  | .int value => (t.narrow? value).map .int
  | .long value => if t = .long then some (.long value) else none
  | .float bits => if t = .float then some (.float bits) else none
  | .double bits => if t = .double then some (.double bits) else none
  | v => if t.stackType? = some .reference then some v else none

/-- How a method is left. -/
inductive Exit where
  | returned (result : Option Operand)
  | thrown (object : Operand)
deriving DecidableEq, Repr

/-- What an instruction does: it goes on with a stack, or it leaves the method. -/
inductive Effect where
  | goesOn (stack : List Operand)
  | leaves (exit : Exit)
deriving DecidableEq, Repr

/-! ### Instructions -/

namespace Instruction

/-- What an instruction does in a method that returns a type, if it finds what it takes.  What a
constructor does to its object is done elsewhere; no other calls are followed. -/
def step? (p : ConstantPool) (t : JavaType) (locals : List Operand) (i : Instruction)
    (s : List Operand) : Option Effect :=
  match i, s with
  | nop, s => some (.goesOn s)
  | dup, v :: s => if v.type.slots = 1 then some (.goesOn (v :: v :: s)) else none
  | aload0, s => (locals[0]?).map fun v => .goesOn (v :: s)
  | aload1, s => (locals[1]?).map fun v => .goesOn (v :: s)
  | ireturn, v :: _ => returning .int v
  | lreturn, v :: _ => returning .long v
  | freturn, v :: _ => returning .float v
  | dreturn, v :: _ => returning .double v
  | areturn, v :: _ => returning .reference v
  | .return, _ => if t = .void then some (.leaves (.returned none)) else none
  | athrow, .object owner :: _ => some (.leaves (.thrown (.object owner)))
  | athrow, .null :: _ => some (.leaves (.thrown (.object "java/lang/NullPointerException")))
  | new index, s => (p.classText? index).map fun owner => .goesOn (.object owner :: s)
  | invokespecial index, s =>
    match (p.methodDescriptor? index).bind MethodType.read with
    | some m =>
      match s.drop m.parameters.length with
      | .object _ :: s => if m.returned = .void then some (.goesOn s) else none
      | _ => none
    | none => none
  | i, s => (i.operand? p).map fun v => .goesOn (v :: s)
where
  /-- Leaves the method with a value that the instruction can return. -/
  returning (k : StackType) (v : Operand) : Option Effect :=
    if v.type = k then (t.result? v).map fun r => .leaves (.returned (some r)) else none

end Instruction

/-- How a list of instructions leaves a method that returns a type.  Code may not end without
leaving. -/
def exit? (p : ConstantPool) (t : JavaType) (locals : List Operand) :
    List Instruction → List Operand → Option Exit
  | [], _ => none
  | i :: is, s =>
    match i.step? p t locals s with
    | some (.goesOn s) => exit? p t locals is s
    | some (.leaves exit) => some exit
    | none => none

variable {p : ConstantPool} {t : JavaType} {locals : List Operand} {i : Instruction} {v : Operand}

/-- A constant that is pushed as a value is one that can be loaded, of the same type. -/
theorem Constant.loaded?_of_operand? {c : Constant} (h : c.operand? p = some v) :
    c.loaded? = some v.type := by
  cases c
  case string text =>
    obtain ⟨content, -, rfl⟩ := Option.map_eq_some_iff.mp h
    rfl
  all_goals
    cases h
    try rfl

/-- A wide constant that is pushed as a value is one that can be loaded, of the same type. -/
theorem Constant.loadedWide?_of_wideOperand? {c : Constant} (h : c.wideOperand? = some v) :
    c.loadedWide? = some v.type := by
  cases c <;> cases h <;> rfl

/-- A value is pushed with its type. -/
theorem Instruction.pushed?_of_operand? (h : i.operand? p = some v) :
    i.pushed? p = some v.type := by
  cases i
  case ldc | ldcW =>
    obtain ⟨c, hat, hc⟩ := Option.bind_eq_some_iff.mp h
    exact Option.bind_eq_some_iff.mpr ⟨c, hat, Constant.loaded?_of_operand? hc⟩
  case ldc2W =>
    obtain ⟨c, hat, hc⟩ := Option.bind_eq_some_iff.mp h
    exact Option.bind_eq_some_iff.mpr ⟨c, hat, Constant.loadedWide?_of_wideOperand? hc⟩
  all_goals
    cases h
    try rfl

/-- What is returned has the type that the returned type has on the stack. -/
theorem JavaType.stackType?_of_result? {r : Operand} (h : t.result? v = some r) :
    t.stackType? = some v.type := by
  cases v
  case int n =>
    obtain ⟨m, hm, -⟩ := Option.map_eq_some_iff.mp h
    cases t <;> cases hm <;> rfl
  case long | float | double =>
    obtain ⟨rfl, -⟩ := Option.ite_none_right_eq_some.mp h
    rfl
  case null | string | object => exact (Option.ite_none_right_eq_some.mp h).1

/-- An instruction that pushes a constant does nothing else. -/
theorem Instruction.step?_of_operand? (h : i.operand? p = some v) (s : List Operand) :
    i.step? p t locals s = some (.goesOn (v :: s)) := by
  have hpush : (i.operand? p).map (fun v => Effect.goesOn (v :: s)) = some (.goesOn (v :: s)) := by
    rw [h]
    rfl
  cases i
  -- these instructions push no constant
  case nop | dup | ireturn | lreturn | freturn | dreturn | areturn | «return» | invokespecial |
    new | athrow | aload0 | aload1 => cases h
  all_goals exact hpush

/-- Code that pushes a constant goes on with it. -/
theorem exit?_push (h : i.operand? p = some v) (is : List Instruction) (s : List Operand) :
    exit? p t locals (i :: is) s = exit? p t locals is (v :: s) := by
  rw [exit?, Instruction.step?_of_operand? h]

end Defuse
