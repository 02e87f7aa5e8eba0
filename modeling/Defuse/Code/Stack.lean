import Defuse.Class.Pool
import Defuse.Code.Instruction
import Defuse.Descriptor

/-!
# The operand stack

How many slots of the operand stack an instruction list takes.  A `long` and a `double` take
two slots.

* `Instruction.growth` — what one instruction adds to the slots in use;
* `maxStack` — the largest number in use at any time.
-/

namespace Defuse

/-- What a call adds to the slots in use: the receiver and the arguments go, the returned
value comes.  A call of an unknown method takes its receiver alone. -/
def MethodType.growth (m : MethodType) : Int :=
  (m.returned.returnSlots : Int) - (1 + m.parameterSlots)

/-- What an instruction adds to the slots in use. -/
def Instruction.growth (p : ConstantPool) : Instruction → Int
  | aconstNull | iconstM1 | iconst0 | iconst1 | iconst2 | iconst3 | iconst4 | iconst5 | fconst0
  | fconst1 | fconst2 | bipush _ | sipush _ | ldc _ | ldcW _ | aload0 | aload1 | new _ | dup => 1
  | lconst0 | lconst1 | dconst0 | dconst1 | ldc2W _ => 2
  | ireturn | freturn | areturn | athrow => -1
  | lreturn | dreturn => -2
  | invokespecial index =>
    match (p.methodDescriptor? index).bind MethodType.read with
    | some m => m.growth
    | none => -1
  | nop | .return => 0

/-- The slots in use. -/
structure StackUse where
  /-- Now. -/
  now : Int
  /-- At most so far. -/
  peak : Int

namespace StackUse

/-- An empty stack. -/
def empty : StackUse := ⟨0, 0⟩

/-- The slots in use after a change; there are never fewer than none. -/
def grow (u : StackUse) (n : Int) : StackUse := ⟨max 0 (u.now + n), max u.peak (u.now + n)⟩

end StackUse

/-- The largest number of slots in use at any time, starting from none. -/
def maxStack (p : ConstantPool) (is : List Instruction) : UInt16 :=
  (is.foldl (fun u i => u.grow (i.growth p)) StackUse.empty).peak.toNat.toUInt16

end Defuse
