import Defuse.Proofs.Descriptors
import Defuse.Proofs.StackTyping

namespace Defuse

/-!
# Slots of the operand stack

The slots of a list of instructions are counted here without the types of the values on the stack,
and for any list, not only for bodies that are generated.

* `Instruction.popped`, `Instruction.pushed` — what an instruction takes off the stack and puts on
  it, given the types of the methods that are called;
* `slotTrail?` — the slots in use along a list that never pops more than it has pushed;
* `ConstantPool.Calls` — a number designates a method by the descriptor of its types;
* `maxStack_slots` — the number of slots of a list is the largest number in use, unless a word of
  two bytes is too short for it;
* `maxStack_wraps` — then it is less, and it can be less if a class among the parameters of a method
  has a closing parenthesis in its name.
-/

/-! ### Instructions -/

namespace Instruction

variable (called : UInt16 → MethodType)

/-- The slots that an instruction takes off the stack. -/
def popped : Instruction → Nat
  | dup | ireturn | freturn | areturn | athrow => 1
  | lreturn | dreturn => 2
  | invokespecial index => 1 + (called index).parameterSlots
  | _ => 0

/-- The slots that an instruction puts on the stack. -/
def pushed : Instruction → Nat
  | aconstNull | iconstM1 | iconst0 | iconst1 | iconst2 | iconst3 | iconst4 | iconst5 | fconst0
  | fconst1 | fconst2 | bipush _ | sipush _ | ldc _ | ldcW _ | aload0 | aload1 | new _ => 1
  | lconst0 | lconst1 | dconst0 | dconst1 | ldc2W _ | dup => 2
  | invokespecial index => (called index).returned.returnSlots
  | nop | ireturn | lreturn | freturn | dreturn | areturn | .return | athrow => 0

/-- What a method returns takes two slots at most. -/
theorem returnSlots_le (t : JavaType) : t.returnSlots ≤ 2 := by
  cases t <;> simp [JavaType.returnSlots, JavaType.slots, JavaType.isWide]

/-- A byte of code pushes two slots at most. -/
theorem pushed_le (i : Instruction) : i.pushed called ≤ 2 * i.size := by
  cases i with
  | invokespecial index =>
    have := returnSlots_le (called index).returned
    simp only [pushed, size]
    omega
  | _ => simp [pushed, size]

variable {called}

/-- What is pushed less what is popped is what the instruction adds, if each called method is read
as the one it is. -/
theorem growth_eq_pushed_sub_popped {p : ConstantPool} {i : Instruction}
    (h : ∀ index, i = .invokespecial index →
      (p.methodDescriptor? index).bind MethodType.read = some (called index)) :
    i.growth p = (i.pushed called : Int) - i.popped called := by
  cases i with
  | invokespecial index =>
    rw [growth, h index rfl]
    simp only [MethodType.growth, pushed, popped]
    omega
  | _ => rfl

end Instruction

/-! ### Lists of instructions -/

/-- The numbers of slots in use along a list of instructions, in front of it and behind each of
them.  There are none if an instruction pops more slots than are in use. -/
def slotTrail? (called : UInt16 → MethodType) : List Instruction → Nat → Option (List Nat)
  | [], n => some [n]
  | i :: is, n =>
    if i.popped called ≤ n then
      (slotTrail? called is (n - i.popped called + i.pushed called)).map (n :: ·)
    else none

/-- A trail starts with the slots in front of the first instruction, which are enough for what it
pops. -/
theorem slotTrail?_cons {called : UInt16 → MethodType} {i : Instruction} {is : List Instruction}
    {n : Nat} {trail : List Nat} :
    slotTrail? called (i :: is) n = some trail ↔
      i.popped called ≤ n ∧ ∃ later,
        slotTrail? called is (n - i.popped called + i.pushed called) = some later ∧
          n :: later = trail := by
  rw [slotTrail?, Option.ite_none_right_eq_some, Option.map_eq_some_iff]

/-- The numbers of slots are the depths that the instructions lead to. -/
theorem depths_of_slotTrail? {p : ConstantPool} {called : UInt16 → MethodType}
    {is : List Instruction} {n : Nat} {trail : List Nat}
    (hread : ∀ index, .invokespecial index ∈ is →
      (p.methodDescriptor? index).bind MethodType.read = some (called index))
    (h : slotTrail? called is n = some trail) :
    ∃ later, trail = n :: later ∧ Depths p is trail := by
  induction is generalizing n trail with
  | nil =>
    cases h
    exact ⟨[], rfl, .last n⟩
  | cons i is ih =>
    obtain ⟨hpop, rest, hrest, rfl⟩ := slotTrail?_cons.mp h
    have hlater (index : UInt16) (hi : .invokespecial index ∈ is) :=
      hread index (List.mem_cons_of_mem i hi)
    obtain ⟨later, rfl, hdepths⟩ := ih hlater hrest
    refine ⟨_, rfl, .step ?_ hdepths⟩
    rw [Instruction.growth_eq_pushed_sub_popped fun index hi => hread index (by simp [hi])]
    omega

/-- As many slots as two for each byte of code are in use at most. -/
theorem slotTrail?_le {called : UInt16 → MethodType} {is : List Instruction} {n : Nat}
    {trail : List Nat} (h : slotTrail? called is n = some trail) :
    ∀ m ∈ trail, m ≤ n + 2 * (Instruction.encodeAll is).length := by
  induction is generalizing n trail with
  | nil =>
    cases h
    simp
  | cons i is ih =>
    obtain ⟨hpop, rest, hrest, rfl⟩ := slotTrail?_cons.mp h
    have hpushed := i.pushed_le called
    rw [Instruction.encodeAll_cons, List.length_append, Instruction.length_encode]
    intro m hm
    rcases List.mem_cons.mp hm with rfl | hm
    · omega
    · have := ih hrest m hm
      omega

/-! ### Methods that are called -/

/-- A number designates a method, and its descriptor is that of these types. -/
def ConstantPool.Calls (p : ConstantPool) (index : UInt16) (m : MethodType) : Prop :=
  m.IsSpellable ∧ ∃ text, p.methodDescriptor? index = some text ∧ text.toList = m.descriptor

/-- The descriptor is read as these types, if no closing parenthesis stands among the parameters. -/
theorem ConstantPool.Calls.read {p : ConstantPool} {index : UInt16} {m : MethodType}
    (h : p.Calls index m) (hclosed : ∀ t ∈ m.parameters, ')' ∉ t.descriptor) :
    (p.methodDescriptor? index).bind MethodType.read = some m := by
  obtain ⟨hspell, text, hat, htext⟩ := h
  rw [hat]
  exact MethodType.read_of_descriptor hspell htext hclosed

/-- **Slots of the operand stack.** Let a list of instructions fit into a code array, call methods
by their descriptors, with no closing parenthesis among the parameters, and never pop more than it
has pushed.  Then `maxStack` is the largest number of slots in use if this number fits into two
bytes, and 65536 less if it does not. -/
theorem maxStack_slots {p : ConstantPool} {is : List Instruction} {called : UInt16 → MethodType}
    {trail : List Nat} (hsize : (Instruction.encodeAll is).length ≤ 65535)
    (hcalls : ∀ index, .invokespecial index ∈ is → p.Calls index (called index))
    (hclosed : ∀ index, .invokespecial index ∈ is →
      ∀ t ∈ (called index).parameters, ')' ∉ t.descriptor)
    (htrail : slotTrail? called is 0 = some trail) :
    ∃ largest ∈ trail, (∀ n ∈ trail, n ≤ largest) ∧
      largest ≤ 2 * (Instruction.encodeAll is).length ∧
      ((maxStack p is).toNat = largest ↔ largest ≤ 65535) ∧
      (65535 < largest → (maxStack p is).toNat + 65536 = largest) := by
  have hread (index : UInt16) (hi : .invokespecial index ∈ is) :
      (p.methodDescriptor? index).bind MethodType.read = some (called index) :=
    (hcalls index hi).read (hclosed index hi)
  obtain ⟨later, rfl, hdepths⟩ := depths_of_slotTrail? hread htrail
  obtain ⟨largest, hmem, hall, hmax⟩ := exists_peak hdepths
  have hbound := slotTrail?_le htrail largest hmem
  have hword : (maxStack p is).toNat = largest % 65536 := by
    rw [hmax]
    simp
  exact ⟨largest, hmem, hall, by omega, by omega, by omega⟩

/-- A pool whose fourth number designates a method with this descriptor. -/
def callPool (descriptor : String) : ConstantPool :=
  ⟨5, [.utf8 (Text.ModifiedUtf8.encode "m"), .utf8 (Text.ModifiedUtf8.encode descriptor),
    .nameAndType 1 2, .methodRef 0 3]⟩

/-- A call with a wide argument and a wide result. -/
theorem maxStack_slots_call :
    let p := callPool "(J[Lp/é;)D"
    let is : List Instruction := [.aconstNull, .lconst1, .aconstNull, .invokespecial 4, .dreturn]
    let called : UInt16 → MethodType := fun _ => ⟨[.long, .array (.reference "p/é")], .double⟩
    let trail := [0, 1, 3, 4, 2, 0]
    (Instruction.encodeAll is).length ≤ 65535 ∧
      (∀ index, .invokespecial index ∈ is → p.Calls index (called index)) ∧
      (∀ index, .invokespecial index ∈ is → ∀ t ∈ (called index).parameters, ')' ∉ t.descriptor) ∧
      slotTrail? called is 0 = some trail ∧
      ∃ largest ∈ trail, (∀ n ∈ trail, n ≤ largest) ∧
        largest ≤ 2 * (Instruction.encodeAll is).length ∧
        ((maxStack p is).toNat = largest ↔ largest ≤ 65535) ∧
        (65535 < largest → (maxStack p is).toNat + 65536 = largest) := by
  intro p is called trail
  have hsize : (Instruction.encodeAll is).length ≤ 65535 := by decide
  have hcalls : ∀ index, .invokespecial index ∈ is → p.Calls index (called index) := by
    intro index hi
    obtain rfl : index = 4 := by simpa [is] using hi
    exact ⟨⟨by decide, by decide⟩, "(J[Lp/é;)D", by decide +kernel, by decide⟩
  have hclosed : ∀ index, .invokespecial index ∈ is →
      ∀ t ∈ (called index).parameters, ')' ∉ t.descriptor := by
    intro index _
    show ∀ t ∈ [JavaType.long, .array (.reference "p/é")], ')' ∉ t.descriptor
    decide
  -- two slots for the `long`, then one for each reference, then two for the result
  have htrail : slotTrail? called is 0 = some trail := by decide
  exact ⟨hsize, hcalls, hclosed, htrail, maxStack_slots hsize hcalls hclosed htrail⟩

/-! ### Where the number is less -/

/-- So many instructions that push two slots and take one byte. -/
def wideCode (k : Nat) : List Instruction := List.replicate k .lconst0

/-- Each instruction of this code pushes two more slots. -/
theorem slotTrail?_wideCode (called : UInt16 → MethodType) (k n : Nat) :
    ∃ trail, slotTrail? called (wideCode k) n = some trail ∧ n + 2 * k ∈ trail := by
  induction k generalizing n with
  | zero => exact ⟨[n], rfl, by simp⟩
  | succ k ih =>
    obtain ⟨trail, htrail, hmem⟩ := ih (n + 2)
    refine ⟨n :: trail, ?_, List.mem_cons_of_mem _ ?_⟩
    · rw [wideCode, List.replicate_succ, slotTrail?_cons]
      exact ⟨Nat.zero_le _, trail, htrail, rfl⟩
    · have hsum : n + 2 * (k + 1) = n + 2 + 2 * k := by omega
      rwa [hsum]

theorem length_encodeAll_wideCode (k : Nat) : (Instruction.encodeAll (wideCode k)).length = k := by
  induction k with
  | zero => rfl
  | succ k ih =>
    rw [wideCode, List.replicate_succ, Instruction.encodeAll_cons, List.length_append, ← wideCode,
      ih]
    exact Nat.add_comm 1 k

/-- Code of 32768 bytes that calls no method and has 65536 slots in use: none are told. -/
theorem maxStack_wraps :
    (Instruction.encodeAll (wideCode 32768)).length ≤ 65535 ∧
      (∀ index, .invokespecial index ∉ wideCode 32768) ∧
      (∃ trail, slotTrail? (fun _ => ⟨[], .void⟩) (wideCode 32768) 0 = some trail ∧
        65536 ∈ trail) ∧
      maxStack .empty (wideCode 32768) = 0 := by
  have hno : ∀ index, .invokespecial index ∉ wideCode 32768 := by
    intro index hi
    cases List.eq_of_mem_replicate hi
  have hlength := length_encodeAll_wideCode 32768
  obtain ⟨trail, htrail, hmem⟩ := slotTrail?_wideCode (fun _ => ⟨[], .void⟩) 32768 0
  obtain ⟨later, rfl, hdepths⟩ := depths_of_slotTrail? (p := .empty)
    (fun index hi => absurd hi (hno index)) htrail
  obtain ⟨largest, hlargest, hall, hmax⟩ := exists_peak hdepths
  have hle := slotTrail?_le htrail largest hlargest
  have hge := hall _ hmem
  obtain rfl : largest = 65536 := by omega
  exact ⟨by omega, hno, ⟨_, htrail, hmem⟩, hmax⟩

/-- A parenthesis in the name of a class: the descriptor is not read, so the call is taken for one
without arguments and result, and of three slots two are told. -/
theorem maxStack_parenthesis :
    let p := callPool "(L);)J"
    let called : UInt16 → MethodType := fun _ => ⟨[.reference ")"], .long⟩
    let is : List Instruction := [.aconstNull, .aconstNull, .invokespecial 4, .aconstNull]
    p.Calls 4 (called 4) ∧ slotTrail? called is 0 = some [0, 1, 2, 2, 3] ∧ maxStack p is = 2 :=
  ⟨⟨⟨by decide, trivial⟩, "(L);)J", by decide +kernel, by decide⟩, by decide, by decide +kernel⟩

end Defuse
