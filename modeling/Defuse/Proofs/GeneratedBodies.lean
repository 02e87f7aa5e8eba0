import Defuse.Proofs.LoadedValues

namespace Defuse

open CompileM ConstantPool

/-!
# The bodies that are generated

* `Loads` — a computation of an instruction that pushes a value of one type;
* `Body` — the shapes of generated bodies, relative to the pool that their operands refer to;
* `Generates` — a computation of bodies of these shapes;
* `Statement.generates`, `bodyCode_generates` — every statement, and every list of them, has
  such a body;
* `compile_eq_ok`, `compile_grown` — what a source text compiles to, in a pool that has grown.
-/

/-! ### Pushing a value of a type -/

/-- A computation of an instruction that pushes a value of a type. -/
structure Loads (e : CompileM Instruction) (k : StackType) : Prop where
  stable : Stable e
  pushes : ∀ {p q i}, outcome e p = (.ok i, q) → q.slots.length ≤ 65535 → i.pushed? q = some k

/-- What pushes just one value pushes something of its type. -/
theorem Pushes.loads {e : CompileM Instruction} {v : Operand} (h : Pushes e (· = v)) :
    Loads e v.type where
  stable := h.stable
  pushes hrun hq := by
    obtain ⟨_, hv, rfl⟩ := h.pushes hrun hq
    exact Instruction.pushed?_of_operand? hv

theorem Loads.throw {k : StackType} (x : CompileError) : Loads (throw x) k where
  stable := .throw x
  pushes hrun _ := by cases hrun

/-- Behind a value that is known, or the reason why there is none. -/
theorem Loads.lift {α : Type} {k : StackType} {r : Except CompileError α}
    {f : α → CompileM Instruction} (h : ∀ a, Loads (f a) k) : Loads (liftM r >>= f) k where
  stable := (Stable.liftM r).bind fun a => (h a).stable
  pushes hrun hq := by
    obtain ⟨a, mid, -, hf⟩ := outcome_bind_eq_ok.mp hrun
    exact (h a).pushes hf hq

/-- A message is loaded as a reference, be it a string or `null`. -/
theorem loadMessage_loads (e : Expression) : Loads (loadMessage e) .reference := by
  refine .lift fun v => ?_
  split
  · exact (loadString_pushes _).loads
  · have hnull : Pushes (pure .aconstNull) (· = .null) := .pure fun _ => rfl
    exact hnull.loads
  · exact .throw _

/-! ### Bodies -/

/-- A number designates a class, and another one its constructor with a descriptor. -/
structure Constructs (q : ConstantPool) (made constructor : UInt16) (descriptor : String) :
    Prop where
  designated : ∃ name, q.at? made = some (.className name)
  method : ∃ nameAndType name type, q.at? constructor = some (.methodRef made nameAndType) ∧
    q.at? nameAndType = some (.nameAndType name type) ∧ q.text? name = some "<init>" ∧
    q.text? type = some descriptor

/-- The bodies of a method that returns a type: it leaves, it gives a constant, or it throws a
new object, made without arguments or from a message. -/
inductive Body (q : ConstantPool) (t : JavaType) : List Instruction → Prop where
  | leave (ht : t = .void) : Body q t [.return]
  | give {load : Instruction} {k : StackType} (hload : load.pushed? q = some k)
      (ht : t.stackType? = some k) : Body q t [load, t.returnInstruction]
  | throwPlain {made constructor : UInt16} (h : Constructs q made constructor "()V") :
      Body q t [.new made, .dup, .invokespecial constructor, .athrow]
  | throwMessage {made constructor : UInt16} {load : Instruction}
      (h : Constructs q made constructor "(Ljava/lang/String;)V")
      (hload : load.pushed? q = some .reference) :
      Body q t [.new made, .dup, load, .invokespecial constructor, .athrow]

/-- A computation of bodies for a method that returns a type. -/
structure Generates (e : CompileM (List Instruction)) (t : JavaType) : Prop where
  stable : Stable e
  body : ∀ {p q is}, outcome e p = (.ok is, q) → q.slots.length ≤ 65535 → Body q t is

namespace Generates

variable {t : JavaType}

theorem throw (x : CompileError) : Generates (throw x) t where
  stable := .throw x
  body hrun _ := by cases hrun

/-- A method without a result can just return. -/
theorem leave (ht : t = .void) : Generates (pure [.return]) t where
  stable := .pure _
  body hrun _ := by
    cases hrun
    exact .leave ht

/-- Behind a value that is known, or the reason why there is none. -/
theorem lift {α : Type} {r : Except CompileError α} {f : α → CompileM (List Instruction)}
    (h : ∀ a, Generates (f a) t) : Generates (liftM r >>= f) t where
  stable := (Stable.liftM r).bind fun a => (h a).stable
  body hrun hq := by
    obtain ⟨a, mid, -, hf⟩ := outcome_bind_eq_ok.mp hrun
    exact (h a).body hf hq

end Generates

/-! ### Statements -/

/-- A value that is returned as a type is pushed with the type that this has on the stack. -/
theorem loadAs_generates (v : Value) (t : JavaType) : Generates (v.loadAs t) t where
  stable := (loadAs_gives v t).stable
  body hrun hq := by
    obtain ⟨load, o, rfl, ho, hresult, -⟩ := (loadAs_gives v t).gives hrun hq
    exact .give (Instruction.pushed?_of_operand? ho) (JavaType.stackType?_of_result? hresult)

/-- A new object is made of the class whose number the constructor has too. -/
theorem throwCode_ok {name descriptor : String} {message : CompileM (List Instruction)}
    (hmessage : Stable message) {p q : ConstantPool} {is : List Instruction}
    (h : outcome (throwCode name descriptor message) p = (.ok is, q))
    (hq : q.slots.length ≤ 65535) :
    ∃ made constructor argument, Constructs q made constructor descriptor ∧
      outcome message q = (.ok argument, q) ∧
      is = .new made :: .dup :: argument ++ [.invokespecial constructor, .athrow] := by
  obtain ⟨made, p₁, hmade, h⟩ := outcome_bind_eq_ok.mp h
  obtain ⟨argument, p₂, hargument, h⟩ := outcome_bind_eq_ok.mp h
  obtain ⟨constructor, p₃, hconstructor, h⟩ := outcome_bind_eq_ok.mp h
  cases h
  rw [outcome_compile] at hmade hconstructor
  have hgrown₂ : Grown p₂ q := (Stable.methodRef _ _ _).grown hconstructor
  have hgrown₁ : Grown p₁ p₂ := hmessage.grown hargument
  have hagain := (Stable.className _).again hmade (hgrown₁.trans hgrown₂)
  obtain ⟨k, nt, n, d, hk, hmethod⟩ := at?_methodRef hconstructor hq
  -- the class is found again, so the constructor refers to it by the same number
  have hsame : made = k := by
    rw [hagain] at hk
    cases hk
    rfl
  obtain ⟨text, hclass, -⟩ := at?_className hagain hq
  exact ⟨made, constructor, argument, ⟨⟨text, hclass⟩, nt, n, d, hsame ▸ hmethod⟩,
    hmessage.again hargument hgrown₂, rfl⟩

/-- Throwing is stable if loading the message is. -/
theorem throwCode_stable {name descriptor : String} {message : CompileM (List Instruction)}
    (hmessage : Stable message) : Stable (throwCode name descriptor message) :=
  (Stable.className _).compile.bind fun _ => hmessage.bind fun _ =>
    (Stable.methodRef _ _ _).compile.bind fun _ => .pure _

/-- Without arguments, the constructor takes nothing. -/
theorem throwPlain_generates (name : String) (t : JavaType) :
    Generates (throwCode name "()V" (return [])) t where
  stable := throwCode_stable (.pure _)
  body hrun hq := by
    obtain ⟨made, constructor, argument, hconstructs, hargument, rfl⟩ :=
      throwCode_ok (.pure _) hrun hq
    cases hargument
    exact .throwPlain hconstructs

/-- With a message, the constructor takes the string that was loaded. -/
theorem throwMessage_generates (name : String) (message : Expression) (t : JavaType) :
    Generates
      (throwCode name "(Ljava/lang/String;)V" (do return [← loadMessage message])) t where
  stable := throwCode_stable ((loadMessage_loads message).stable.bind fun _ => .pure _)
  body hrun hq := by
    obtain ⟨made, constructor, argument, hconstructs, hargument, rfl⟩ :=
      throwCode_ok ((loadMessage_loads message).stable.bind fun _ => .pure _) hrun hq
    obtain ⟨load, mid, hload, hrest⟩ := outcome_bind_eq_ok.mp hargument
    cases hrest
    exact .throwMessage hconstructs ((loadMessage_loads message).pushes hload hq)

/-- Every statement generates a body. -/
theorem Statement.generates (s : Statement) (t : JavaType) : Generates (s.code t) t := by
  unfold Statement.code
  split
  · split
    · next ht => exact .leave ht
    · exact .throw _
  · split
    · exact .throw _
    · exact .lift fun v => loadAs_generates v t
  · exact throwPlain_generates _ t
  · exact throwMessage_generates _ _ t
  · exact .throw _
  · exact .throw _

/-- Whatever the statements of a body are, what they compile to is a body of one of the known
kinds. -/
theorem bodyCode_generates (t : JavaType) (statements : List Statement) :
    Generates (bodyCode t statements) t := by
  unfold bodyCode
  split
  · split
    · next ht => exact .leave ht
    · exact .throw _
  · exact Statement.generates _ t
  · next s _ _ =>
    -- the second statement is out of reach, whatever the first one is
    refine ⟨(s.generates t).stable.bind fun _ => .throw _, fun hrun _ => ?_⟩
    obtain ⟨_, _, -, hthrow⟩ := outcome_bind_eq_ok.mp hrun
    cases hthrow

/-! ### Source texts -/

/-- The slots of the local variables are those of the receiver and the parameters, up to the
greatest number that can be stored. -/
theorem toNat_localSlots (isStatic : Bool) (m : MethodType) :
    (localSlots isStatic m).toNat =
      min 65535 ((if isStatic then 0 else 1) + (m.parameters.map JavaType.slots).sum) := by
  have hlt : min 65535 ((if isStatic then 0 else 1) + m.parameterSlots) % 2 ^ 16 =
      min 65535 ((if isStatic then 0 else 1) + m.parameterSlots) := Nat.mod_eq_of_lt (by omega)
  exact UInt16.toNat_ofNat'.trans hlt

/-- Generating code only adds to the pool, also where it fails in the end. -/
theorem generate_grows (statements : List Statement) (method : MethodContext)
    (p : ConstantPool) : Grown p (outcome (generate statements method) p).2 := by
  unfold generate
  split
  · exact .refl p
  · next type _ =>
    rw [outcome_bind]
    have hgrows := (bodyCode_generates type.returned statements).stable.grows p
    split
    · next is q hrun =>
      rw [hrun] at hgrows
      exact hgrows
    · next hrun =>
      rw [hrun] at hgrows
      exact hgrows

/-- Compiling a source text only lets the pool grow. -/
theorem compile_grows (method : MethodContext) (source : String) (p : ConstantPool) :
    Grown p (outcome (compile method source) p).2 := by
  rw [compile, outcome_bind, outcome_liftM]
  cases parseBody source with
  | ok statements => exact generate_grows statements method p
  | error e => exact .refl p

/-- Compiling only adds to the pool, also where it fails in the end. -/
theorem compile_grown {method : MethodContext} {source : String} {p q : ConstantPool}
    {r : Except CompileError GeneratedCode} (h : outcome (compile method source) p = (r, q)) :
    Grown p q := by
  have := compile_grows method source p
  rwa [h] at this

/-- What a source text compiles to: the code of its statements, with the sizes that this code
and the method need. -/
theorem compile_eq_ok {method : MethodContext} {source : String} {p q : ConstantPool}
    {g : GeneratedCode} :
    outcome (compile method source) p = (.ok g, q) ↔
      ∃ type statements, MethodType.read method.descriptor = some type ∧
        parseBody source = .ok statements ∧
        outcome (bodyCode type.returned statements) p = (.ok g.instructions, q) ∧
        g.maxStack = maxStack q g.instructions ∧
        g.maxLocals = localSlots method.isStatic type := by
  constructor
  -- the text is parsed, then the descriptor is read, then the body is compiled
  · intro h
    obtain ⟨statements, mid, hparse, h⟩ := outcome_bind_eq_ok.mp h
    simp only [outcome_liftM, Prod.mk.injEq] at hparse
    obtain ⟨hparse, rfl⟩ := hparse
    unfold generate at h
    split at h
    · cases h
    · next type htype =>
      obtain ⟨is, p₁, his, h⟩ := outcome_bind_eq_ok.mp h
      obtain ⟨_, _, hget, h⟩ := outcome_bind_eq_ok.mp h
      cases hget
      cases h
      exact ⟨type, statements, htype, hparse, his, rfl, rfl⟩
  · rintro ⟨type, statements, htype, hparse, hbody, hstack, hlocals⟩
    obtain ⟨is, stack, locals⟩ := g
    simp only at hbody hstack hlocals
    rw [compile, hparse, outcome_bind, outcome_liftM, hstack, hlocals]
    simp only [generate, htype, outcome_bind, hbody, outcome_get, outcome_pure]

end Defuse
