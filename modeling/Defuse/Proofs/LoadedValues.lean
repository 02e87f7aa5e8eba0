import Defuse.Body.Compile
import Defuse.Proofs.Execution
import Defuse.Proofs.PoolGrowth

namespace Defuse

open CompileM ConstantPool

/-!
# The values that are loaded

* `Pushes` — a computation of an instruction that pushes one of certain values;
* `loadInt_pushes`, `loadLong_pushes`, … — a value is pushed as it is, whichever instruction is
  taken for it;
* `Value.returnedAs?` — what a value becomes when it is returned as a type;
* `loadAs_gives` — the code that pushes it so converted and returns it.
-/

/-- An addition to the pool is as stable within a compilation as it is alone. -/
theorem Stable.compile {α : Type} {edit : Edit α} (h : Stable edit) :
    Stable (CompileM.intern edit) :=
  h.adapt _

/-- A compilation that only adds to the pool succeeds exactly as the addition does. -/
theorem outcome_compile {α : Type} {edit : Edit α} {p q : ConstantPool} {a : α} :
    outcome (CompileM.intern edit) p = (.ok a, q) ↔ outcome edit p = (.ok a, q) :=
  outcome_adapt_eq_ok

/-! ### Instructions that push -/

/-- A computation of an instruction that pushes one of certain values. -/
structure Pushes (e : CompileM Instruction) (P : Operand → Prop) : Prop where
  stable : Stable e
  pushes : ∀ {p q i}, outcome e p = (.ok i, q) → q.slots.length ≤ 65535 →
    ∃ v, i.operand? q = some v ∧ P v

/-- The number of a constant that fits in one byte is read back from the byte. -/
theorem toUInt8_toUInt16 {index : UInt16} (h : index ≤ 255) : index.toUInt8.toUInt16 = index := by
  have hindex : index.toNat ≤ 255 := h
  apply UInt16.toNat.inj
  rw [UInt8.toNat_toUInt16, UInt16.toNat_toUInt8]
  exact Nat.mod_eq_of_lt (by omega)

/-- What a constant pushes depends only on what its number stands for: the short and the long form
of the instruction do the same. -/
theorem operand?_loadConstant (p : ConstantPool) (index : UInt16) :
    (loadConstant index).operand? p = (p.at? index).bind (Constant.operand? p) := by
  unfold loadConstant
  split
  · next hsmall => rw [Instruction.operand?, toUInt8_toUInt16 hsmall]
  · rfl

namespace Pushes

variable {P Q : Operand → Prop} {v : Operand}

/-- What pushes some of certain values pushes some of any larger set of them. -/
theorem imp {e : CompileM Instruction} (h : Pushes e P) (hPQ : ∀ v, P v → Q v) : Pushes e Q where
  stable := h.stable
  pushes hrun hq := by
    obtain ⟨v, hv, hP⟩ := h.pushes hrun hq
    exact ⟨v, hv, hPQ v hP⟩

/-- An instruction that refers to no constant pushes the same over every pool. -/
theorem pure {i : Instruction} (h : ∀ p, i.operand? p = some v) : Pushes (pure i) (· = v) where
  stable := .pure i
  pushes {p q j} hrun _ := by
    cases hrun
    exact ⟨v, h _, rfl⟩

theorem throw (x : CompileError) : Pushes (throw x) P where
  stable := .throw x
  pushes hrun _ := by cases hrun

/-- An instruction that loads what an addition to the pool has the number of. -/
theorem bind {edit : Edit UInt16} {load : UInt16 → Instruction} (hstable : Stable edit)
    (h : ∀ {p q i}, outcome edit p = (.ok i, q) → q.slots.length ≤ 65535 →
      (load i).operand? q = some v) :
    Pushes (do return load (← CompileM.intern edit)) (· = v) where
  stable := hstable.compile.bind fun _ => .pure _
  pushes {p q j} hrun hq := by
    obtain ⟨i, mid, hi, hj⟩ := outcome_bind_eq_ok.mp hrun
    cases hj
    exact ⟨v, h (outcome_compile.mp hi) hq, rfl⟩

/-- A constant of one slot. -/
theorem constant {c : Constant} (hc : c ≠ .unusable) (hv : ∀ p, c.operand? p = some v) :
    Pushes (do return loadConstant (← CompileM.intern (ConstantPool.intern c))) (· = v) :=
  .bind (.intern hc) fun h hq => by
    rw [operand?_loadConstant, at?_intern h hq]
    exact hv _

/-- A constant of two slots. -/
theorem wide {c : Constant} (hc : c ≠ .unusable) (hv : c.wideOperand? = some v) :
    Pushes (do return .ldc2W (← CompileM.intern (ConstantPool.intern c))) (· = v) :=
  .bind (.intern hc) fun h hq => by
    rw [Instruction.operand?, at?_intern h hq]
    exact hv

end Pushes

/-! ### Numbers and strings -/

/-- A number within the bounds of a narrower type is what is left of it there. -/
theorem eq_of_bmod {n m : Int32} {k : Nat} (hnarrow : m.toInt = n.toInt.bmod (2 * k))
    (h : -k ≤ n.toInt ∧ n.toInt < k) : m = n := by
  apply Int32.toInt.inj
  rw [hnarrow]
  exact Int.bmod_eq_of_le (by omega) (by omega)

/-- A number of one byte is pushed by `bipush` as it is. -/
theorem toInt32_toInt8 {n : Int32} (h : -128 ≤ n ∧ n ≤ 127) : n.toInt8.toInt32 = n :=
  eq_of_bmod (k := 128) (by rw [Int8.toInt_toInt32, Int32.toInt_toInt8])
    ⟨Int32.le_iff_toInt_le.mp h.1, Int.lt_add_one_of_le (Int32.le_iff_toInt_le.mp h.2)⟩

/-- A number of two bytes is pushed by `sipush` as it is. -/
theorem toInt32_toInt16 {n : Int32} (h : -32768 ≤ n ∧ n ≤ 32767) : n.toInt16.toInt32 = n :=
  eq_of_bmod (k := 32768) (by rw [Int16.toInt_toInt32, Int32.toInt_toInt16])
    ⟨Int32.le_iff_toInt_le.mp h.1, Int.lt_add_one_of_le (Int32.le_iff_toInt_le.mp h.2)⟩

/-- The shortest instruction for an `int` pushes just that `int`. -/
theorem loadInt_pushes (n : Int32) : Pushes (loadInt n) (· = .int n) := by
  unfold loadInt
  -- seven numbers have an instruction of their own
  iterate 7
    split
    · next h => exact h ▸ .pure fun _ => rfl
  split
  · next h => exact .pure fun _ => by rw [Instruction.operand?, toInt32_toInt8 h]
  · split
    · next h => exact .pure fun _ => by rw [Instruction.operand?, toInt32_toInt16 h]
    · exact .constant (by simp) fun _ => rfl

/-- A `long` other than zero and one is pushed from the pool, bit by bit as it was. -/
theorem loadLong_pushes (n : Int64) : Pushes (loadLong n) (· = .long n) := by
  unfold loadLong
  split
  · next h => exact h ▸ .pure fun _ => rfl
  · split
    · next h => exact h ▸ .pure fun _ => rfl
    · exact .wide (by simp) rfl

/-- The bits decide which instruction is taken, so the negative zero is a constant. -/
theorem loadFloat_pushes (bits : UInt32) : Pushes (loadFloat bits) (· = .float bits) := by
  have hone : floatOfInt 1 = 0x3F800000 := by decide +kernel
  have htwo : floatOfInt 2 = 0x40000000 := by decide +kernel
  unfold loadFloat
  rw [hone, htwo]
  split
  · next h => exact h ▸ .pure fun _ => rfl
  · split
    · next h => exact h ▸ .pure fun _ => rfl
    · split
      · next h => exact h ▸ .pure fun _ => rfl
      · exact .constant (by simp) fun _ => rfl

/-- A `double` other than zero and one is pushed from the pool with the same bits. -/
theorem loadDouble_pushes (bits : UInt64) : Pushes (loadDouble bits) (· = .double bits) := by
  -- the constant one is compared by its bits
  have hone : doubleOfInt 1 = 0x3FF0000000000000 := by decide +kernel
  unfold loadDouble
  rw [hone]
  split
  · next h => exact h ▸ .pure fun _ => rfl
  · split
    · next h => exact h ▸ .pure fun _ => rfl
    · exact .wide (by simp) rfl

/-- A string that is loaded is the text itself, since what the pool stores of it decodes to it. -/
theorem loadString_pushes (text : String) : Pushes (loadString text) (· = .string text) := by
  unfold loadString
  split
  · exact .throw _
  · refine .bind (.string text) fun h hq => ?_
    -- the constant refers to a text, which stands where the addition put it
    obtain ⟨n, hn, htext⟩ := at?_string h hq
    rw [operand?_loadConstant, hn]
    show (ConstantPool.text? _ n).map Operand.string = _
    rw [htext]
    rfl

/-! ### Values that are returned -/

namespace Value

/-- The `int` that a value is; a `char` is its code unit. -/
def int? : Value → Option Int32
  | int n => some n
  | char unit => some (Int32.ofNat unit.toNat)
  | _ => none

/-- The whole number that a value is. -/
def whole? : Value → Option Int
  | int n => some n.toInt
  | long n => some n.toInt
  | char unit => some unit.toNat
  | _ => none

/-- What a value becomes when it is returned as a type, if it can be. -/
def returnedAs? (v : Value) : JavaType → Option Operand
  | .boolean =>
    match v with
    | boolean b => some (.int (if b then 1 else 0))
    | _ => none
  | .byte | .short | .char | .int => v.int?.map .int
  | .long => v.whole?.map fun n => .long (Int64.ofInt n)
  | .float =>
    match v with
    | float bits => some (.float bits)
    | v => v.whole?.map fun n => .float (floatOfInt n)
  | .double =>
    match v with
    | double bits => some (.double bits)
    | float bits => some (.double (doubleOfFloat bits))
    | v => v.whole?.map fun n => .double (doubleOfInt n)
  | .reference _ =>
    match v with
    | null => some .null
    | string text => some (.string text)
    | _ => none
  | .array _ =>
    match v with
    | null => some .null
    | _ => none
  | .void => none

/-- A value that becomes an `int` by promotion is that `int`. -/
theorem int?_of_promoted? {v : Value} {n : Int32} (h : v.promoted? = some (.int n)) :
    v.int? = some n := by
  cases v <;> cases h <;> rfl

/-- The `int` of a character is its code. -/
theorem toInt_intOfUnit (unit : UInt16) : (intOfUnit unit).toInt = unit.toNat :=
  Int32.toInt_ofNat_of_lt (Nat.lt_trans unit.toNat_lt (by decide))

/-- A value that becomes an `int` by promotion is a whole number, of which the `int` loses
nothing. -/
theorem whole?_of_promoted? {v : Value} {n : Int32} (h : v.promoted? = some (.int n)) :
    v.whole? = some n.toInt := by
  cases v <;> cases h
  case int => rfl
  case char unit => exact congrArg some (toInt_intOfUnit unit).symm

/-- An `int` is returned as a `long` of the same value. -/
theorem returnedAs?_long_of_int {v : Value} {n : Int32} (h : v.promoted? = some (.int n)) :
    v.returnedAs? .long = some (.long n.toInt64) := by
  rw [returnedAs?, whole?_of_promoted? h]
  rfl

/-- A `long` is returned as itself. -/
theorem returnedAs?_long_of_long {v : Value} {n : Int64} (h : v.promoted? = some (.long n)) :
    v.returnedAs? .long = some (.long n) := by
  cases v <;> cases h
  exact congrArg (fun n => some (Operand.long n)) (Int64.ofInt_toInt n)

/-- Every number but a `double` is returned as a `float`: a `double` would lose digits. -/
theorem returnedAs?_float {v : Value} {n : Number} (h : v.promoted? = some n)
    (hn : ∀ bits, n ≠ .double bits) : v.returnedAs? .float = some (.float n.toFloat) := by
  cases v <;> cases h
  case int | long | float => rfl
  case double bits => exact absurd rfl (hn bits)
  case char unit =>
    rw [Number.toFloat, toInt_intOfUnit]
    rfl

/-- Every number is returned as a `double`. -/
theorem returnedAs?_double {v : Value} {n : Number} (h : v.promoted? = some n) :
    v.returnedAs? .double = some (.double n.toDouble) := by
  cases v <;> cases h
  case int | long | float | double => rfl
  case char unit =>
    rw [Number.toDouble, toInt_intOfUnit]
    rfl

end Value

/-! ### Returning a loaded value -/

/-- The instruction that returns a value of a type. -/
def JavaType.returnInstruction : JavaType → Instruction
  | int | byte | char | short | boolean => .ireturn
  | long => .lreturn
  | float => .freturn
  | double => .dreturn
  | reference _ | array _ => .areturn
  | void => .return

/-- A computation of code that loads one of certain values and returns it as it is. -/
structure Gives (e : CompileM (List Instruction)) (t : JavaType) (P : Operand → Prop) : Prop where
  stable : Stable e
  gives : ∀ {p q is}, outcome e p = (.ok is, q) → q.slots.length ≤ 65535 →
    ∃ load v, is = [load, t.returnInstruction] ∧ load.operand? q = some v ∧
      t.result? v = some v ∧ P v

namespace Gives

variable {t : JavaType} {P : Operand → Prop} {v : Operand}

theorem throw (x : CompileError) : Gives (throw x) t P where
  stable := .throw x
  gives hrun _ := by cases hrun

/-- A loaded value is given if its return as the type does not change it. -/
theorem load {e : CompileM Instruction} {i : Instruction}
    (h : Pushes e fun v => t.result? v = some v ∧ P v) (hi : i = t.returnInstruction) :
    Gives (do return [← e, i]) t P where
  stable := h.stable.bind fun _ => .pure _
  gives hrun hq := by
    obtain ⟨load, mid, hload, hrest⟩ := outcome_bind_eq_ok.mp hrun
    cases hrest
    obtain ⟨v, hv, hresult, hP⟩ := h.pushes hload hq
    exact ⟨load, v, by rw [hi], hv, hresult, hP⟩

/-- The same, of code that pushes just one value. -/
theorem value {e : CompileM Instruction} {i : Instruction} (h : Pushes e (· = v))
    (hresult : t.result? v = some v) (hP : P v) (hi : i = t.returnInstruction) :
    Gives (do return [← e, i]) t P :=
  .load (h.imp fun _ hv => hv ▸ ⟨hresult, hP⟩) hi

/-- A value that has an instruction of its own. -/
theorem own {load i : Instruction} (h : ∀ p, load.operand? p = some v)
    (hresult : t.result? v = some v) (hP : P v) (hi : i = t.returnInstruction) :
    Gives (pure [load, i]) t P where
  stable := .pure _
  gives hrun _ := by
    cases hrun
    exact ⟨load, v, by rw [hi], h _, hresult, hP⟩

end Gives

/-- A number within the range of `char` keeps all its bits under the mask of two bytes. -/
theorem and_0xFFFF {n : Int32} (h : 0 ≤ n ∧ n ≤ 65535) : n &&& 0xFFFF = n := by
  have hleast : 0 ≤ n.toInt := Int32.le_iff_toInt_le.mp h.1
  have hgreatest : n.toInt ≤ 65535 := Int32.le_iff_toInt_le.mp h.2
  -- a number that is not negative is the natural number of its bits
  have hnat : n.toBitVec.toNat < 65536 := by
    have hbits := BitVec.toInt_eq_toNat_cond n.toBitVec
    rw [Int32.toInt_toBitVec] at hbits
    split at hbits <;> omega
  apply Int32.toBitVec.inj
  apply BitVec.eq_of_toNat_eq
  show n.toBitVec.toNat &&& 65535 = n.toBitVec.toNat
  rw [Nat.and_two_pow_sub_one_eq_mod _ 16]
  exact Nat.mod_eq_of_lt hnat

/-- A number in the range of a small type is not changed by its return. -/
theorem loadSmall_pushes {t : JavaType} {least greatest : Int32} (v : Value)
    (h : ∀ n, least ≤ n ∧ n ≤ greatest → t.narrow? n = some n) :
    Pushes (v.loadSmall t least greatest) fun o =>
      t.result? o = some o ∧ v.int?.map .int = some o := by
  unfold Value.loadSmall
  split
  · next n hn =>
    split
    · exact .throw _
    · next hrange =>
      simp only [not_or, Int32.not_lt] at hrange
      refine (loadInt_pushes n).imp ?_
      rintro _ rfl
      rw [Value.int?_of_promoted? hn, JavaType.result?, h n hrange]
      exact ⟨rfl, rfl⟩
  · exact .throw _

/-- A value that is returned as a type is converted to it. -/
theorem loadAs_gives (v : Value) (t : JavaType) :
    Gives (v.loadAs t) t (v.returnedAs? t = some ·) := by
  cases t
  -- one case for each type, and in it one for each value that can be returned as it
  all_goals simp only [Value.loadAs]
  case reference name =>
    split
    · exact .own (fun _ => rfl) rfl rfl rfl
    · split
      · exact .value (loadString_pushes _) rfl rfl rfl
      · exact .throw _
    · exact .throw _
  case array =>
    split
    · next hnull => exact .own (fun _ => rfl) rfl (by rw [hnull, Value.returnedAs?]) rfl
    · exact .throw _
  case boolean =>
    split
    · next b => cases b <;> exact .own (fun _ => rfl) rfl rfl rfl
    · exact .throw _
  case int =>
    split
    · next n hn =>
      have hint : v.int?.map Operand.int = some (.int n) := by
        rw [Value.int?_of_promoted? hn]
        rfl
      exact .value (loadInt_pushes n) rfl hint rfl
    · exact .throw _
  case byte =>
    exact .load (loadSmall_pushes v fun n hn => congrArg some (toInt32_toInt8 hn)) rfl
  case short =>
    exact .load (loadSmall_pushes v fun n hn => congrArg some (toInt32_toInt16 hn)) rfl
  case char => exact .load (loadSmall_pushes v fun n hn => congrArg some (and_0xFFFF hn)) rfl
  case long =>
    split
    · next n hn => exact .value (loadLong_pushes _) rfl (Value.returnedAs?_long_of_int hn) rfl
    · next n hn => exact .value (loadLong_pushes n) rfl (Value.returnedAs?_long_of_long hn) rfl
    · exact .throw _
  case float =>
    split
    · exact .throw _
    · exact .throw _
    · next n hdouble hn =>
      -- a `double` is refused here, which is what `returnedAs?_float` asks for
      exact .value (loadFloat_pushes _) rfl (Value.returnedAs?_float hn hdouble) rfl
  case double =>
    split
    · next n hn => exact .value (loadDouble_pushes _) rfl (Value.returnedAs?_double hn) rfl
    · exact .throw _
  case void => exact .throw _

end Defuse
