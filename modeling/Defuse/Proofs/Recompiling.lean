import Defuse.Class.ClassFile
import Defuse.Proofs.GeneratedBodies

namespace Defuse

open ConstantPool

/-!
# Compiling twice

A source text can be refused behind some of its constants, which then stay in the pool.

* `generate_settled`, `compile_settled` — in the pool that it left, a source text comes to the same
  code or to the same error, and leaves the pool as it is;
* `ClassFile.compiled` — what a source text comes to in a class, and what becomes of the class;
* `compiled_twice` — the class gets further constants and is otherwise the same, and compiling
  once more changes nothing.
-/

/-- In the pool that they left, statements come to the same once more.  The size of the stack,
which is looked up in the pool at the end, is then looked up in the same pool. -/
theorem generate_settled {statements : List Statement} {method : MethodContext}
    {p q : ConstantPool} {r : Except CompileError GeneratedCode}
    (h : outcome (generate statements method) p = (r, q)) :
    outcome (generate statements method) q = (r, q) := by
  unfold generate at h ⊢
  split at h
  · exact (Stable.throw _).settled h
  · next type htype =>
    have hstable := (bodyCode_generates type.returned statements).stable
    rw [outcome_bind] at h ⊢
    split at h
    · next is mid hrun =>
      -- nothing is added behind the code
      have hleft : q = mid := congrArg Prod.snd h.symm
      rw [hleft] at h ⊢
      rw [hstable.settled hrun]
      exact h
    · next hrun =>
      cases h
      rw [hstable.settled hrun]

/-- In the pool that it left, a source text comes to the same once more. -/
theorem compile_settled {method : MethodContext} {source : String} {p q : ConstantPool}
    {r : Except CompileError GeneratedCode} (h : outcome (compile method source) p = (r, q)) :
    outcome (compile method source) q = (r, q) := by
  rw [compile, outcome_bind, outcome_liftM] at h ⊢
  cases hparse : parseBody source with
  | error e =>
    rw [hparse] at h
    cases h
    rfl
  | ok statements =>
    rw [hparse] at h
    exact generate_settled h

/-- What a source text comes to in a class, and the class with the pool that it leaves. -/
def ClassFile.compiled (c : ClassFile) (method : MethodContext) (source : String) :
    Except CompileError GeneratedCode × ClassFile :=
  let run := outcome (compile method source) c.pool
  (run.1, { c with pool := run.2 })

/-- **Compiling twice.** Whether or not a source text compiles, the class only gets further
constants behind those it has.  Compiled once more, the source text comes to the same code or to
the same error, and the class stays exactly as it is. -/
theorem compiled_twice (c : ClassFile) (method : MethodContext) (source : String) :
    (c.compiled method source).2 = { c with pool := (c.compiled method source).2.pool } ∧
      c.pool.slots <+: (c.compiled method source).2.pool.slots ∧
      (c.compiled method source).2.compiled method source = c.compiled method source := by
  refine ⟨rfl, ?_, ?_⟩
  · obtain ⟨added, hadded⟩ := (compile_grows method source c.pool).appended
    exact ⟨added, hadded.symm⟩
  · have hagain : outcome (compile method source) (outcome (compile method source) c.pool).2 =
        outcome (compile method source) c.pool := compile_settled rfl
    unfold ClassFile.compiled
    rw [hagain]

end Defuse
