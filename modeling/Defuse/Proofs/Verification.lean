import Defuse.Proofs.CodeFormat
import Defuse.Proofs.GeneratedBodies
import Defuse.Proofs.SourceText

namespace Defuse

open ConstantPool

/-!
# Generated code verifies

* `Instruction.IsResolved` — an operand designates a constant of the kind that is needed;
* `Verified` — generated code as a verifier of class files accepts it;
* `Body.verified` — every generated body is verified;
* `verified_of_compile` — all code that a source text compiles to is verified.
-/

/-! ### What is verified -/

/-- An operand designates a constant of the kind that its instruction needs, and a constructor
is that of the class of which the same code makes an object. -/
def Instruction.IsResolved (p : ConstantPool) (is : List Instruction) : Instruction → Prop
  | ldc index =>
    (∃ v, p.at? index.toUInt16 = some (.integer v)) ∨
      (∃ v, p.at? index.toUInt16 = some (.float v)) ∨
      ∃ v, p.at? index.toUInt16 = some (.string v)
  | ldcW index =>
    (∃ v, p.at? index = some (.integer v)) ∨ (∃ v, p.at? index = some (.float v)) ∨
      ∃ v, p.at? index = some (.string v)
  | ldc2W index => (∃ v, p.at? index = some (.long v)) ∨ ∃ v, p.at? index = some (.double v)
  | new index => ∃ name, p.at? index = some (.className name)
  | invokespecial index =>
    ∃ owner nameAndType name type, p.at? index = some (.methodRef owner nameAndType) ∧
      p.at? nameAndType = some (.nameAndType name type) ∧ p.text? name = some "<init>" ∧
      ∀ made, .new made ∈ is ↔ made = owner
  | _ => True

/-- Code of a method that returns a type, as a verifier of class files accepts it. -/
structure Verified (p : ConstantPool) (returned : JavaType) (g : GeneratedCode) : Prop where
  /-- Only the last instruction leaves the method, with a value of the type or by throwing. -/
  leaves : ∃ front last, g.instructions = front ++ [last] ∧
    (∀ i ∈ front, i.isTerminal = false) ∧ last.isTerminal = true ∧
    (last = returned.returnInstruction ∨ last = .athrow)
  /-- Every instruction finds the types that it takes, the stack is empty in the end, and it
  takes as many slots as are stated, and no more. -/
  runs : ∃ trail, traced? p g.instructions [] = some trail ∧ trail.getLast? = some [] ∧
    (∀ s ∈ trail, depth s ≤ g.maxStack.toNat) ∧ ∃ s ∈ trail, depth s = g.maxStack.toNat
  /-- The code array has a length that is allowed. -/
  short : 0 < (Instruction.encodeAll g.instructions).length ∧
    (Instruction.encodeAll g.instructions).length ≤ 65535
  /-- Every operand designates a constant of the kind that is needed. -/
  resolved : ∀ i ∈ g.instructions, i.IsResolved p g.instructions

/-! ### Single instructions -/

namespace Instruction

variable {p : ConstantPool} {i : Instruction} {k : StackType}

/-- An instruction that pushes a constant does not end the code. -/
theorem isTerminal_of_pushed? (h : i.pushed? p = some k) : i.isTerminal = false := by
  cases i <;> first | rfl | cases h

/-- An instruction takes three bytes at most. -/
theorem size_le (i : Instruction) : i.size ≤ 3 := by
  cases i <;> simp [size]

/-- What is pushed from the pool is a constant of the kind that is needed. -/
theorem isResolved_of_pushed? (h : i.pushed? p = some k) (is : List Instruction) :
    i.IsResolved p is := by
  cases i
  case ldc | ldcW | ldc2W =>
    obtain ⟨c, hc, hk⟩ := Option.bind_eq_some_iff.mp h
    simp only [IsResolved, hc]
    cases c <;> first | cases hk; done | simp
  case new | invokespecial => cases h
  all_goals trivial

/-- An instruction that pushes a constant makes no object. -/
theorem ne_new_of_pushed? (h : i.pushed? p = some k) (made : UInt16) : i ≠ .new made := by
  rintro rfl
  cases h

end Instruction

/-- Returning a value ends the code. -/
theorem JavaType.isTerminal_returnInstruction (t : JavaType) :
    t.returnInstruction.isTerminal = true := by
  cases t <;> rfl

theorem JavaType.isResolved_returnInstruction (t : JavaType) (p : ConstantPool)
    (is : List Instruction) : t.returnInstruction.IsResolved p is := by
  cases t <;> trivial

/-- The return of a type takes a value of this type. -/
theorem JavaType.run?_returnInstruction {t : JavaType} {k : StackType}
    (h : t.stackType? = some k) (p : ConstantPool) :
    t.returnInstruction.run? p [k] = some [] := by
  cases t <;> cases h <;> rfl

namespace Constructs

variable {q : ConstantPool} {made constructor : UInt16} {descriptor : String}

/-- The instruction that makes the object pushes a reference. -/
theorem run?_new (h : Constructs q made constructor descriptor) (s : List StackType) :
    (Instruction.new made).run? q s = some (.reference :: s) := by
  obtain ⟨name, hname⟩ := h.designated
  simp only [Instruction.run?, hname]

/-- The constructor is called with the descriptor that was added for it. -/
theorem methodDescriptor? (h : Constructs q made constructor descriptor) :
    q.methodDescriptor? constructor = some descriptor := by
  obtain ⟨nt, n, d, hmethod, hnt, -, hdescriptor⟩ := h.method
  simp only [ConstantPool.methodDescriptor?, hmethod, hnt, hdescriptor]

/-- A call of a constructor with a descriptor is one with its types. -/
theorem run?_invokespecial (h : Constructs q made constructor descriptor) {m : MethodType}
    (hm : MethodType.read descriptor = some m) (s : List StackType) :
    (Instruction.invokespecial constructor).run? q s = m.call? s := by
  simp only [Instruction.run?, h.methodDescriptor?, Option.bind_some, hm]

/-- A constructor of a class of which only it makes objects is resolved. -/
theorem isResolved (h : Constructs q made constructor descriptor) {is : List Instruction}
    (hmade : ∀ k, .new k ∈ is ↔ k = made) :
    (Instruction.invokespecial constructor).IsResolved q is := by
  obtain ⟨nt, n, d, hmethod, hnt, hname, -⟩ := h.method
  exact ⟨made, nt, n, d, hmethod, hnt, hname, hmade⟩

end Constructs

/-! ### Bodies -/

/-- A list of instructions is short where it has few of them. -/
theorem length_encodeAll_le (is : List Instruction) :
    (Instruction.encodeAll is).length ≤ 3 * is.length := by
  induction is with
  | nil => exact Nat.le_refl _
  | cons i is ih =>
    have := i.size_le
    rw [Instruction.encodeAll_cons, List.length_append, Instruction.length_encode,
      List.length_cons]
    omega

/-- Some instructions take a byte at least. -/
theorem length_encodeAll_pos {is : List Instruction} (h : is ≠ []) :
    0 < (Instruction.encodeAll is).length := by
  cases is with
  | nil => exact absurd rfl h
  | cons i is =>
    have := i.size_pos
    rw [Instruction.encodeAll_cons, List.length_append, Instruction.length_encode]
    omega

/-- The stacks that a body passes through: they are never deep, and the last one is empty. -/
theorem Body.traced {q : ConstantPool} {t : JavaType} {is : List Instruction}
    (h : Body q t is) :
    ∃ trail, traced? q is [] = some trail ∧ trail.getLast? = some [] ∧
      ∀ s ∈ trail, depth s ≤ 3 := by
  cases h with
  | leave ht => exact ⟨[[], []], rfl, rfl, by simp⟩
  | give hload ht =>
    rename_i load k
    refine ⟨[[], [k], []], ?_, rfl, ?_⟩
    · rw [traced?_cons (Instruction.run?_of_pushed? hload []),
        traced?_cons (JavaType.run?_returnInstruction ht q)]
      rfl
    · have : k.slots ≤ 2 := by cases k <;> decide
      simp
      omega
  -- the new object is there twice: the constructor takes it once, the throw the other time
  | throwPlain h =>
    refine ⟨[[], [.reference], [.reference, .reference], [.reference], []], ?_, rfl, by decide⟩
    have hcall := h.run?_invokespecial (m := ⟨[], .void⟩) (by decide +kernel)
      [.reference, .reference]
    rw [traced?_cons (h.run?_new []),
      traced?_cons (t := [.reference, .reference]) rfl, traced?_cons (t := [.reference]) hcall,
      traced?_cons (t := []) rfl]
    rfl
  | throwMessage h hload =>
    refine ⟨[[], [.reference], [.reference, .reference], [.reference, .reference, .reference],
      [.reference], []], ?_, rfl, by decide⟩
    have hcall := h.run?_invokespecial (m := ⟨[.reference "java/lang/String"], .void⟩)
      (by decide +kernel) [.reference, .reference, .reference]
    rw [traced?_cons (h.run?_new []),
      traced?_cons (t := [.reference, .reference]) rfl,
      traced?_cons (Instruction.run?_of_pushed? hload _),
      traced?_cons (t := [.reference]) hcall, traced?_cons (t := []) rfl]
    rfl

/-- Every generated body is verified. -/
theorem Body.verified {q : ConstantPool} {t : JavaType} {is : List Instruction}
    (h : Body q t is) (locals : UInt16) : Verified q t ⟨is, maxStack q is, locals⟩ where
  leaves := by
    cases h with
    | leave ht => exact ⟨[], .return, rfl, by simp, rfl, .inl (by rw [ht]; rfl)⟩
    | give hload ht =>
      exact ⟨[_], _, rfl, by simpa using Instruction.isTerminal_of_pushed? hload,
        t.isTerminal_returnInstruction, .inl rfl⟩
    | throwPlain h => exact ⟨[_, _, _], _, rfl, by simp [Instruction.isTerminal], rfl, .inr rfl⟩
    | throwMessage h hload =>
      have hgoes := Instruction.isTerminal_of_pushed? hload
      refine ⟨[_, _, _, _], _, rfl, ?_, rfl, .inr rfl⟩
      simp only [List.forall_mem_cons]
      exact ⟨rfl, rfl, hgoes, rfl, by simp⟩
  runs := by
    obtain ⟨trail, htraced, hlast, hdepth⟩ := h.traced
    have hpeak := maxStack_isPeak htraced fun s hs => Nat.lt_of_le_of_lt (hdepth s hs) (by decide)
    exact ⟨trail, htraced, hlast, hpeak⟩
  short := by
    have hle := length_encodeAll_le is
    -- no body has more than five instructions, of three bytes at most
    have hcount : is ≠ [] ∧ is.length ≤ 5 := by cases h <;> simp
    refine ⟨length_encodeAll_pos hcount.1, ?_⟩
    show (Instruction.encodeAll is).length ≤ 65535
    omega
  resolved := by
    cases h with
    | leave ht => simp [Instruction.IsResolved]
    | give hload ht =>
      simpa using ⟨Instruction.isResolved_of_pushed? hload _, t.isResolved_returnInstruction q _⟩
    | throwPlain h =>
      simp only [List.forall_mem_cons]
      exact ⟨h.designated, trivial, h.isResolved (by simp), trivial, by simp⟩
    | throwMessage h hload =>
      have hnew := Instruction.ne_new_of_pushed? hload
      simp only [List.forall_mem_cons]
      refine ⟨h.designated, trivial, Instruction.isResolved_of_pushed? hload _, ?_, trivial,
        by simp⟩
      exact h.isResolved (by simp [fun k => (hnew k).symm])

/-- The code of a source text has verified instructions and the locals of its method. -/
theorem compile_verified {method : MethodContext} {source : String} {p q : ConstantPool}
    {g : GeneratedCode} (hp : p.slots.length ≤ 65535)
    (h : outcome (compile method source) p = (.ok g, q)) :
    ∃ type, MethodType.read method.descriptor = some type ∧ Verified q type.returned g ∧
      g.maxLocals = localSlots method.isStatic type := by
  have hgrown := compile_grown h
  obtain ⟨type, statements, htype, -, hbody, hstack, hlocals⟩ := compile_eq_ok.mp h
  have hverified := ((bodyCode_generates type.returned statements).body hbody
    (hgrown.length_le hp)).verified g.maxLocals
  rw [← hstack] at hverified
  exact ⟨type, htype, hverified, hlocals⟩

/-- The code of a source text is short enough for the format. -/
theorem length_code_le {method : MethodContext} {source : String} {p q : ConstantPool}
    {g : GeneratedCode} (hp : p.slots.length ≤ 65535)
    (h : outcome (compile method source) p = (.ok g, q)) :
    (Instruction.encodeAll g.instructions).length ≤ 65535 := by
  obtain ⟨type, -, hverified, -⟩ := compile_verified hp h
  exact hverified.short.2

/-- **Generated code verifies.** -/
theorem verified_of_compile {method : MethodContext} {source : String} {p q : ConstantPool}
    {g : GeneratedCode} (hp : p.slots.length ≤ 65535)
    (h : (compile method source).run.run p = (.ok g, q)) :
    ∃ type, MethodType.read method.descriptor = some type ∧ Verified q type.returned g ∧
      g.maxLocals.toNat = min 65535 ((if method.isStatic then 0 else 1) +
        (type.parameters.map JavaType.slots).sum) := by
  obtain ⟨type, htype, hverified, hlocals⟩ := compile_verified hp h
  rw [hlocals]
  exact ⟨type, htype, hverified, toNat_localSlots method.isStatic type⟩

/-- The pool of a class that throws an `Error`. -/
def errorPool : ConstantPool where
  storedSize := 7
  slots := [.utf8 (Text.ModifiedUtf8.encode "java/lang/Error"), .className 1,
    .utf8 (Text.ModifiedUtf8.encode "<init>"),
    .utf8 (Text.ModifiedUtf8.encode "(Ljava/lang/String;)V"), .nameAndType 3 4, .methodRef 2 5]

/-- The example is compiled to the five instructions of a throw, with the message in between. -/
theorem bodyCode_error : outcome (bodyCode .void [.throw (.new "Error" [.null])]) .empty =
    (.ok [.new 2, .dup, .aconstNull, .invokespecial 6, .athrow], errorPool) := by
  have howner : internalName "Error" = "java/lang/Error" := by simp [internalName]
  show outcome (throwCode "Error" "(Ljava/lang/String;)V" (return [← loadMessage .null])) .empty = _
  rw [throwCode, howner]
  rfl

open Scan in
/-- The source text of the example, token by token. -/
theorem parseBody_error :
    parseBody "throw new Error(null);" = .ok [.throw (.new "Error" [.null])] := by
  have hchars : "throw new Error(null);".toList =
      ['t', 'h', 'r', 'o', 'w', ' ', 'n', 'e', 'w', ' ', 'E', 'r', 'r', 'o', 'r', '(',
        'n', 'u', 'l', 'l', ')', ';'] := by
    simp
  rw [parseBody, tokenize, hchars]
  iterate 7 rw [tokensOnto_token rfl rfl]
  rw [tokensOnto_end rfl]
  rfl

/-- The example needs three slots, and its method has three locals. -/
theorem compile_error :
    outcome (compile ⟨"m", "(J)V", false⟩ "throw new Error(null);") .empty =
      (.ok ⟨[.new 2, .dup, .aconstNull, .invokespecial 6, .athrow], 3, 3⟩, errorPool) := by
  have htype : MethodType.read "(J)V" = some ⟨[.long], .void⟩ := by decide +kernel
  have hstack : maxStack errorPool [.new 2, .dup, .aconstNull, .invokespecial 6, .athrow] = 3 := by
    decide +kernel
  exact compile_eq_ok.mpr ⟨_, _, htype, parseBody_error, bodyCode_error, hstack.symm, rfl⟩

/-- Code that throws an `Error` without a message, in a method that takes a `long`. -/
theorem verified_error :
    ∃ type, MethodType.read "(J)V" = some type ∧
      Verified errorPool type.returned
        ⟨[.new 2, .dup, .aconstNull, .invokespecial 6, .athrow], 3, 3⟩ ∧
      (3 : UInt16).toNat = min 65535 ((if false then 0 else 1) +
        (type.parameters.map JavaType.slots).sum) :=
  verified_of_compile (Nat.zero_le _) compile_error

end Defuse
