import Defuse.Class.Patch
import Defuse.Proofs.GeneratedBodies

namespace Defuse

open CompileM ConstantPool

/-!
# Pools that can be written

The length of a text is stored in one word, so a pool with a longer text cannot be written.  The
length of a string is looked at before the string is added; that of a class name is not.

* `WritableIff` — what a computation leaves behind can be written exactly under a condition;
* `WritableIff.intern`, `WritableIff.bind`, … — the condition is that all texts are short enough;
* `loadString_writable`, `Value.loadAs_writable`, … — what is loaded is always written;
* `throwCode_writable` — what is thrown is not, if its class has too long a name;
* `ThrowsLongName`, `generated_writable` — the source texts of which this can happen.
-/

/-- A text that the format has room for. -/
def Text.IsStorable (text : String) : Prop := (ModifiedUtf8.encode text).length ≤ 65535

open Text

instance (text : String) : Decidable (IsStorable text) :=
  inferInstanceAs (Decidable (_ ≤ _))

theorem MethodBody.isStorable_attributeName : IsStorable MethodBody.attributeName := by decide

variable {ε α β γ : Type}

/-- Where a computation does not fail, the pool that it leaves can be written exactly if the one
that it found can be written and the condition holds. -/
def WritableIff (e : ExceptT ε (StateM ConstantPool) α) (P : Prop) : Prop :=
  ∀ p q a, outcome e p = (.ok a, q) → (q.isWritable = true ↔ p.isWritable = true ∧ P)

namespace WritableIff

variable {P Q : Prop}

theorem congr {e : ExceptT ε (StateM ConstantPool) α} (h : WritableIff e P) (hPQ : P ↔ Q) :
    WritableIff e Q := by
  intro p q a hrun
  rw [h p q a hrun, hPQ]

/-! ### Computations -/

/-- A computation that adds nothing leaves the pool as writable as it was. -/
theorem pure (a : α) : WritableIff (pure a : ExceptT ε (StateM ConstantPool) α) True := by
  intro p q b hrun
  cases hrun
  rw [and_true]

/-- Of a computation that fails anything can be said. -/
theorem throw (x : ε) : WritableIff (throw x : ExceptT ε (StateM ConstantPool) α) P := by
  intro p q a hrun
  cases hrun

/-- One after the other, two computations need both conditions. -/
theorem bind {e : ExceptT ε (StateM ConstantPool) α}
    {f : α → ExceptT ε (StateM ConstantPool) β} (he : WritableIff e P)
    (hf : ∀ a, WritableIff (f a) Q) : WritableIff (e >>= f) (P ∧ Q) := by
  intro p q b hrun
  -- the second one starts from what the first one left
  obtain ⟨a, mid, ha, hb⟩ := outcome_bind_eq_ok.mp hrun
  rw [hf a mid q b hb, he p mid a ha, and_assoc]

/-- What is done with the value adds nothing. -/
theorem map {e : ExceptT ε (StateM ConstantPool) α} (f : α → β) (he : WritableIff e P) :
    WritableIff (e >>= fun a => Pure.pure (f a)) P :=
  (he.bind fun a => pure (f a)).congr (Iff.of_eq (and_true P))

/-- Behind a value that is known, or the reason why there is none. -/
theorem lift {r : Except ε γ} {f : γ → ExceptT ε (StateM ConstantPool) α}
    (hf : ∀ c, WritableIff (f c) P) : WritableIff (liftM r >>= f) P := by
  intro p q a hrun
  obtain ⟨c, mid, hc, ha⟩ := outcome_bind_eq_ok.mp hrun
  rw [outcome_liftM, Prod.mk.injEq] at hc
  rw [hf c mid q a ha, hc.2]

/-- A compilation that only adds to the pool needs what the addition needs. -/
theorem compile {edit : Edit α} (h : WritableIff edit P) :
    WritableIff (CompileM.intern edit) P := by
  intro p q a hrun
  exact h p q a (outcome_compile.mp hrun)

/-! ### Constants -/

/-- A constant that is found could be written already. -/
theorem intern (c : Constant) : WritableIff (ConstantPool.intern c) (c.isWritable = true) := by
  intro p q i hrun
  rw [outcome_intern] at hrun
  split at hrun
  · next hfound =>
    cases hrun
    have hc : p.isWritable = true → c.isWritable = true := by
      intro hp
      exact List.all_eq_true.mp hp c (mem_of_find? hfound)
    exact ⟨fun hp => ⟨hp, hc hp⟩, And.left⟩
  · rw [outcome_push] at hrun
    split at hrun
    · cases hrun
    · cases hrun
      show (p.slots ++ c.slots).all Constant.isWritable = true ↔ _
      rw [List.all_append, c.all_isWritable_slots, Bool.and_eq_true]
      rfl

/-- A constant that is no text. -/
theorem short {c : Constant} (hc : c.isWritable = true) :
    WritableIff (ConstantPool.intern c) True :=
  (intern c).congr (iff_true_intro hc)

/-- A constant with one part. -/
theorem part {e : Edit α} {make : α → Constant} (he : WritableIff e P)
    (hmake : ∀ a, (make a).isWritable = true) :
    WritableIff (e >>= fun a => ConstantPool.intern (make a)) P :=
  (he.bind fun a => short (hmake a)).congr (Iff.of_eq (and_true P))

/-- A text is written if it is short enough for its length to fit in a word. -/
theorem utf8 (text : String) : WritableIff (ConstantPool.utf8 text) (IsStorable text) := by
  apply (intern (.utf8 (ModifiedUtf8.encode text))).congr
  rw [Constant.isWritable, decide_eq_true_eq, IsStorable]
  exact Nat.lt_succ_iff

theorem className (name : String) : WritableIff (ConstantPool.className name) (IsStorable name) :=
  (utf8 name).part fun _ => rfl

theorem string (text : String) : WritableIff (ConstantPool.string text) (IsStorable text) :=
  (utf8 text).part fun _ => rfl

theorem nameAndType (name descriptor : String) :
    WritableIff (ConstantPool.nameAndType name descriptor)
      (IsStorable name ∧ IsStorable descriptor) :=
  (utf8 name).bind fun _ => (utf8 descriptor).part fun _ => rfl

/-- All three texts of a method reference have to be short enough. -/
theorem methodRef (owner name descriptor : String) :
    WritableIff (ConstantPool.methodRef owner name descriptor)
      (IsStorable owner ∧ IsStorable name ∧ IsStorable descriptor) :=
  (className owner).bind fun _ => (nameAndType name descriptor).part fun _ => rfl

end WritableIff

/-! ### What is loaded -/

/-- Whatever an `int` needs in the pool can be written. -/
theorem loadInt_writable (n : Int32) : WritableIff (loadInt n) True := by
  unfold loadInt
  -- nine kinds of numbers have instructions that refer to no constant
  iterate 9
    split
    · exact .pure _
  exact (WritableIff.short rfl).compile.map _

/-- Whatever a `long` needs in the pool can be written. -/
theorem loadLong_writable (n : Int64) : WritableIff (loadLong n) True := by
  unfold loadLong
  -- zero and one have instructions that refer to no constant
  iterate 2
    split
    · exact .pure _
  exact (WritableIff.short rfl).compile.map _

theorem loadFloat_writable (bits : UInt32) : WritableIff (loadFloat bits) True := by
  unfold loadFloat
  -- zero, one and two have instructions that refer to no constant
  iterate 3
    split
    · exact .pure _
  exact (WritableIff.short rfl).compile.map _

theorem loadDouble_writable (bits : UInt64) : WritableIff (loadDouble bits) True := by
  unfold loadDouble
  iterate 2
    split
    · exact .pure _
  exact (WritableIff.short rfl).compile.map _

/-- A string that is too long is refused before it is added. -/
theorem loadString_writable (text : String) : WritableIff (loadString text) True := by
  unfold loadString
  split
  · exact .throw _
  · next hshort =>
    have hstorable : IsStorable text := Nat.not_lt.mp hshort
    exact ((WritableIff.string text).congr (iff_true_intro hstorable)).compile.map _

/-- A number out of range is refused, and one in range is loaded as an `int`. -/
theorem loadSmall_writable (v : Value) (t : JavaType) (least greatest : Int32) :
    WritableIff (v.loadSmall t least greatest) True := by
  unfold Value.loadSmall
  split
  · split
    · exact .throw _
    · exact loadInt_writable _
  · exact .throw _

/-- Whatever is returned, the constants that it needs can be written. -/
theorem loadAs_writable (v : Value) (t : JavaType) : WritableIff (v.loadAs t) True := by
  cases t
  -- one case for each type, and in it one for each value that can be returned as it
  all_goals simp only [Value.loadAs]
  case reference name =>
    split
    · exact .pure _
    · split
      · exact (loadString_writable _).map _
      · exact .throw _
    · exact .throw _
  case array =>
    split
    · exact .pure _
    · exact .throw _
  case boolean =>
    split
    · exact .pure _
    · exact .throw _
  case int =>
    split
    · exact (loadInt_writable _).map _
    · exact .throw _
  case byte => exact (loadSmall_writable v _ _ _).map _
  case short => exact (loadSmall_writable v _ _ _).map _
  case char => exact (loadSmall_writable v _ _ _).map _
  case long =>
    split
    · exact (loadLong_writable _).map _
    · exact (loadLong_writable _).map _
    · exact .throw _
  case float =>
    split
    · exact .throw _
    · exact .throw _
    · exact (loadFloat_writable _).map _
  case double =>
    split
    · exact (loadDouble_writable _).map _
    · exact .throw _
  case void => exact .throw _

/-- The message of an exception is loaded as a string is. -/
theorem loadMessage_writable (e : Expression) : WritableIff (loadMessage e) True := by
  refine .lift fun v => ?_
  split
  · exact loadString_writable _
  · exact .pure _
  · exact .throw _

/-! ### Statements -/

/-- The name of the class is stored as it is, however long it is. -/
theorem throwCode_writable (name : String) {descriptor : String}
    {message : CompileM (List Instruction)} (hmessage : WritableIff message True)
    (hdescriptor : IsStorable descriptor) :
    WritableIff (throwCode name descriptor message) (IsStorable (internalName name)) := by
  have hinit : IsStorable "<init>" := by decide
  have hcode : WritableIff (throwCode name descriptor message) _ :=
    -- the class is asked for twice, with the same name
    (WritableIff.className (internalName name)).compile.bind fun _ => hmessage.bind fun _ =>
      (WritableIff.methodRef (internalName name) "<init>" descriptor).compile.map _
  refine hcode.congr ⟨And.left, fun howner => ⟨howner, trivial, howner, hinit, hdescriptor⟩⟩

/-- A statement does not throw a new object of a class whose name is too long. -/
def Statement.NamesStorable : Statement → Prop
  | .throw (.new name _) => IsStorable (internalName name)
  | _ => True

/-- Whatever a statement leaves in the pool can be written, unless it names a class whose name is
too long. -/
theorem Statement.code_writable (s : Statement) (t : JavaType) :
    WritableIff (s.code t) s.NamesStorable := by
  -- one case for each kind of statement; those that do not compile leave nothing to be written
  unfold Statement.code
  split
  · split
    · exact .pure _
    · exact .throw _
  · split
    · exact .throw _
    · exact .lift fun v => loadAs_writable v t
  · exact throwCode_writable _ (.pure []) (by decide)
  · exact throwCode_writable _ ((loadMessage_writable _).map _) (by decide)
  · exact .throw _
  · exact .throw _

/-- An empty body needs no constants. -/
theorem bodyCode_nil_writable (t : JavaType) : WritableIff (bodyCode t []) True := by
  rw [bodyCode]
  split
  · exact .pure _
  · exact .throw _

/-! ### Source texts -/

/-- All that a source text does is to throw a new object of a class whose name is too long. -/
def ThrowsLongName (source : String) : Prop :=
  ∃ name arguments, parseBody source = .ok [.throw (.new name arguments)] ∧
    65535 < (ModifiedUtf8.encode (internalName name)).length

/-- For a source text of one statement, the condition on the statement is the one on the text. -/
theorem Statement.namesStorable_iff {source : String} {s : Statement}
    (hparse : parseBody source = .ok [s]) : s.NamesStorable ↔ ¬ ThrowsLongName source := by
  constructor
  · rintro hs ⟨name, arguments, hthrow, hlong⟩
    -- the statement is the one that the text is parsed to
    have hsame : s = .throw (.new name arguments) := by
      rw [hparse] at hthrow
      simpa using hthrow
    rw [hsame] at hs
    exact absurd hs (Nat.not_le.mpr hlong)
  · intro hshort
    unfold NamesStorable
    split
    · next name arguments =>
      exact Nat.not_lt.mp fun hlong => hshort ⟨name, arguments, hparse, hlong⟩
    · trivial

/-- What a source text compiles to can be written unless it throws what has too long a name. -/
theorem compile_writable (method : MethodContext) (source : String) :
    WritableIff (Defuse.compile method source) (¬ ThrowsLongName source) := by
  intro p q g hrun
  obtain ⟨type, statements, -, hparse, hbody, -, -⟩ := compile_eq_ok.mp hrun
  -- a body of two statements does not compile
  rcases statements with _ | ⟨s, _ | ⟨s', rest⟩⟩
  · have hshort : ¬ ThrowsLongName source := by
      rintro ⟨name, arguments, hthrow, -⟩
      rw [hparse] at hthrow
      cases hthrow
    rw [bodyCode_nil_writable type.returned p q _ hbody, iff_true_intro hshort]
  · rw [← Statement.namesStorable_iff hparse]
    exact s.code_writable type.returned p q _ hbody
  · obtain ⟨_, _, -, hthrow⟩ := outcome_bind_eq_ok.mp hbody
    cases hthrow

/-- The name of the attribute that holds the code is short. -/
theorem generated_writable (method : MethodContext) (source : String) :
    WritableIff (generated Defuse.compile method source) (¬ ThrowsLongName source) := by
  have hgenerated : WritableIff (generated Defuse.compile method source) _ :=
    (compile_writable method source).bind fun g =>
      (WritableIff.utf8 MethodBody.attributeName).compile.map fun n => (g, n)
  exact hgenerated.congr (and_iff_left MethodBody.isStorable_attributeName)

end Defuse
