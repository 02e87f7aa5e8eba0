import Defuse.Proofs.GeneratedBodies
import Defuse.Proofs.SourceText

namespace Defuse

open CompileM ConstantPool

/-!
# The value of a returned expression

* `exit?_returnInstruction` — a return instruction leaves with what its type makes of a value;
* `exit?_of_gives` — hence code that gives a value returns it;
* `returned_value` — a source text that returns an expression compiles to code that returns the
  value of the expression, converted to the type that the method returns.
-/

variable {p q : ConstantPool} {t : JavaType} {locals : List Operand}

/-- The instruction that returns a type returns a value as that type. -/
theorem JavaType.step?_returnInstruction {k : StackType} (h : t.stackType? = some k)
    (v : Operand) (s : List Operand) :
    t.returnInstruction.step? p t locals (v :: s) = Instruction.step?.returning t k v := by
  cases t <;> cases h <;> rfl

/-- A value that can be returned as it is leaves the method. -/
theorem exit?_returnInstruction {v r : Operand} (h : t.result? v = some r)
    (is : List Instruction) (s : List Operand) :
    exit? p t locals (t.returnInstruction :: is) (v :: s) = some (.returned (some r)) := by
  have htype : t.stackType? = some v.type := JavaType.stackType?_of_result? h
  rw [exit?, JavaType.step?_returnInstruction htype, Instruction.step?.returning, if_pos rfl, h]
  rfl

/-- Code that gives a value returns it. -/
theorem exit?_of_gives {e : CompileM (List Instruction)} {P : Operand → Prop}
    (h : Gives e t P) {is : List Instruction} (hrun : outcome e p = (.ok is, q))
    (hq : q.slots.length ≤ 65535) :
    ∃ v, P v ∧ ∀ locals s, exit? q t locals is s = some (.returned (some v)) := by
  obtain ⟨load, v, rfl, hload, hresult, hP⟩ := h.gives hrun hq
  refine ⟨v, hP, fun locals s => ?_⟩
  rw [exit?_push hload, exit?_returnInstruction hresult]

/-- What the statement that returns an expression compiles to. -/
theorem code_return_eq_ok {e : Expression} {is : List Instruction}
    (h : outcome (Statement.code t (.return (some e))) p = (.ok is, q)) :
    ∃ v, e.value = .ok v ∧ outcome (v.loadAs t) p = (.ok is, q) := by
  by_cases ht : t = .void
  · rw [Statement.code, if_pos ht] at h
    cases h
  · rw [Statement.code, if_neg ht] at h
    obtain ⟨v, mid, hv, hload⟩ := outcome_bind_eq_ok.mp h
    simp only [outcome_liftM, Prod.mk.injEq] at hv
    obtain ⟨hv, rfl⟩ := hv
    exact ⟨v, hv, hload⟩

/-- **The value of an expression is returned.** A source text that is the return of an expression
is compiled for a method, on a pool of at most 65535 slots.  The code that comes out, run on the
pool that comes out, whatever the local variables are, returns the value of the expression,
converted to the type that the method returns. -/
theorem returned_value {method : MethodContext} {source : String} {e : Expression}
    {g : GeneratedCode} (hp : p.slots.length ≤ 65535)
    (hsource : parseBody source = .ok [.return (some e)])
    (h : (compile method source).run.run p = (.ok g, q)) :
    ∃ type v result, MethodType.read method.descriptor = some type ∧ e.value = .ok v ∧
      v.returnedAs? type.returned = some result ∧
      ∀ locals, exit? q type.returned locals g.instructions [] =
        some (.returned (some result)) := by
  have hq : q.slots.length ≤ 65535 := (compile_grown h).length_le hp
  obtain ⟨type, statements, htype, hparse, hbody, -, -⟩ := compile_eq_ok.mp h
  rw [hsource] at hparse
  cases hparse
  obtain ⟨v, hv, hload⟩ := code_return_eq_ok hbody
  obtain ⟨result, hresult, hexit⟩ := exit?_of_gives (loadAs_gives v type.returned) hload hq
  exact ⟨type, v, result, htype, hv, hresult, fun locals => hexit locals []⟩

/-! ### A negative zero -/

open Scan in
/-- The source text of the example, token by token. -/
theorem parseBody_negativeZero :
    parseBody "return -0.0f;" = .ok [.return (some (.negate (.float 0)))] := by
  have hchars : "return -0.0f;".toList =
      ['r', 'e', 't', 'u', 'r', 'n', ' ', '-', '0', '.', '0', 'f', ';'] := by
    simp
  rw [parseBody, tokenize, hchars]
  iterate 4 rw [tokensOnto_token rfl rfl]
  rw [tokensOnto_end rfl]
  rfl

/-- The pool of a class that returns a negative zero. -/
def negativeZeroPool : ConstantPool where
  storedSize := 3
  slots := [.double 0x8000000000000000, .unusable]

/-- The constant of the example is the negative zero, widened to a `double`. -/
theorem compile_negativeZero :
    outcome (compile ⟨"m", "()D", true⟩ "return -0.0f;") .empty =
      (.ok ⟨[.ldc2W 1, .dreturn], 2, 0⟩, negativeZeroPool) := by
  have htype : MethodType.read "()D" = some ⟨[], .double⟩ := by decide +kernel
  have hbody : outcome (bodyCode .double [.return (some (.negate (.float 0)))]) .empty =
      (.ok [.ldc2W 1, .dreturn], negativeZeroPool) := rfl
  exact compile_eq_ok.mpr ⟨_, _, htype, parseBody_negativeZero, hbody, rfl, rfl⟩

/-- A negative zero of type `float` is returned as the negative zero of type `double`. -/
theorem returned_value_negativeZero :
    exit? negativeZeroPool .double [] [.ldc2W 1, .dreturn] [] =
      some (.returned (some (.double 0x8000000000000000))) := by
  have htype : MethodType.read "()D" = some ⟨[], .double⟩ := by decide +kernel
  have hvalue : (Expression.negate (.float 0)).value = .ok (.float 0x80000000) := rfl
  have hresult : (Value.float 0x80000000).returnedAs? .double =
      some (.double 0x8000000000000000) := rfl
  obtain ⟨type, v, result, htype', hvalue', hresult', hexit⟩ :=
    returned_value (Nat.zero_le _) parseBody_negativeZero compile_negativeZero
  cases htype.symm.trans htype'
  cases hvalue.symm.trans hvalue'
  cases hresult.symm.trans hresult'
  exact hexit []

end Defuse
