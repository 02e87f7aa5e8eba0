import Defuse.Code.Stack

namespace Defuse

/-!
# Types on the operand stack

* `StackType` — the types of the values on the operand stack;
* `Instruction.run?` — what an instruction makes of the types on the stack, if it finds those
  that it takes;
* `Instruction.depth_run?` — an instruction adds the slots that `Instruction.growth` tells;
* `Depths`, `exists_peak` — where instructions add these slots, `maxStack` is the greatest depth;
* `traced?` — the stacks that a list of instructions passes through;
* `maxStack_isPeak` — hence `maxStack` is the depth of the deepest of them.
-/

/-- The types of the values on the operand stack. -/
inductive StackType where
  | int
  | float
  | long
  | double
  | reference
deriving DecidableEq, Repr

/-- The slots a value takes. -/
def StackType.slots : StackType → Nat
  | int | float | reference => 1
  | long | double => 2

/-- The slots that the values on a stack take. -/
def depth (s : List StackType) : Nat := (s.map StackType.slots).sum

@[simp] theorem depth_nil : depth [] = 0 := rfl

@[simp] theorem depth_cons (t : StackType) (s : List StackType) :
    depth (t :: s) = t.slots + depth s := by
  simp [depth]

/-- The type that values of a type have on the stack. -/
def JavaType.stackType? : JavaType → Option StackType
  | int | byte | char | short | boolean => some .int
  | long => some .long
  | float => some .float
  | double => some .double
  | reference _ | array _ => some .reference
  | void => none

/-- What a value has on the stack takes the slots of its type. -/
theorem JavaType.slots_stackType? {t : JavaType} {k : StackType} (h : t.stackType? = some k) :
    k.slots = t.slots := by
  cases t <;> cases h <;> rfl

/-- A result takes the slots of its type, and none where there is no result. -/
theorem JavaType.depth_result (t : JavaType) (s : List StackType) :
    depth (t.stackType?.toList ++ s) = t.returnSlots + depth s := by
  cases t with
  | void => simp [stackType?, returnSlots]
  | _ => rfl

/-! ### Taking values off the stack -/

/-- The stack below a value of a type. -/
def pop? (k : StackType) : List StackType → Option (List StackType)
  | top :: rest => if top = k then some rest else none
  | [] => none

/-- What is popped takes its slots away. -/
theorem depth_pop? {k : StackType} {s t : List StackType} (h : pop? k s = some t) :
    depth s = k.slots + depth t := by
  unfold pop? at h
  split at h
  · split at h
    · next htop =>
      cases h
      rw [depth_cons, htop]
    · cases h
  · cases h

/-- The stack below values of given types, the first of them on top. -/
def popAll? : List JavaType → List StackType → Option (List StackType)
  | [], s => some s
  | t :: ts, s => do
    let k ← t.stackType?
    let s ← pop? k s
    popAll? ts s

/-- Popping all parameters takes their slots away. -/
theorem depth_popAll? {ts : List JavaType} {s t : List StackType} (h : popAll? ts s = some t) :
    depth s = (ts.map JavaType.slots).sum + depth t := by
  induction ts generalizing s with
  | nil =>
    cases h
    simp
  | cons a ts ih =>
    simp only [popAll?, Option.bind_eq_bind, Option.bind_eq_some_iff] at h
    obtain ⟨k, hk, mid, hmid, hrest⟩ := h
    rw [depth_pop? hmid, ih hrest, JavaType.slots_stackType? hk, List.map_cons, List.sum_cons]
    omega

/-- The stack behind a call: the arguments go, the last of them first, then the receiver, and
the result comes. -/
def MethodType.call? (m : MethodType) (s : List StackType) : Option (List StackType) := do
  let s ← popAll? m.parameters.reverse s
  let s ← pop? .reference s
  return m.returned.stackType?.toList ++ s

/-- A call changes the depth by its growth. -/
theorem MethodType.depth_call? {m : MethodType} {s t : List StackType}
    (h : m.call? s = some t) : (depth t : Int) = depth s + m.growth := by
  simp only [call?, Option.bind_eq_bind, Option.bind_eq_some_iff, Option.pure_def,
    Option.some.injEq] at h
  obtain ⟨below, hbelow, rest, hrest, rfl⟩ := h
  -- the arguments lie above the object that the method is called on
  have harguments := depth_popAll? hbelow
  have hreceiver := depth_pop? hrest
  have hslots : (m.parameters.reverse.map JavaType.slots).sum = m.parameterSlots := by
    rw [List.map_reverse, List.sum_reverse]
    rfl
  rw [hslots] at harguments
  rw [JavaType.depth_result, growth, harguments, hreceiver, StackType.slots]
  omega

/-! ### Instructions -/

/-- The type that a constant of one slot is loaded as. -/
def Constant.loaded? : Constant → Option StackType
  | integer _ => some .int
  | float _ => some .float
  | string _ => some .reference
  | _ => none

/-- The type that a constant of two slots is loaded as. -/
def Constant.loadedWide? : Constant → Option StackType
  | long _ => some .long
  | double _ => some .double
  | _ => none

namespace Instruction

/-- What an instruction that pushes a constant pushes. -/
def pushed? (p : ConstantPool) : Instruction → Option StackType
  | aconstNull => some .reference
  | iconstM1 | iconst0 | iconst1 | iconst2 | iconst3 | iconst4 | iconst5 | bipush _ | sipush _ =>
    some .int
  | lconst0 | lconst1 => some .long
  | fconst0 | fconst1 | fconst2 => some .float
  | dconst0 | dconst1 => some .double
  | ldc index => (p.at? index.toUInt16).bind Constant.loaded?
  | ldcW index => (p.at? index).bind Constant.loaded?
  | ldc2W index => (p.at? index).bind Constant.loadedWide?
  | _ => none

/-- What an instruction makes of the types on the stack.  Local variables are not followed,
so what is loaded from one has no type. -/
def run? (p : ConstantPool) (i : Instruction) (s : List StackType) : Option (List StackType) :=
  match i with
  | nop | .return => some s
  | dup =>
    match s with
    | top :: rest => if top.slots = 1 then some (top :: top :: rest) else none
    | [] => none
  | ireturn => pop? .int s
  | lreturn => pop? .long s
  | freturn => pop? .float s
  | dreturn => pop? .double s
  | areturn | athrow => pop? .reference s
  | new index =>
    match p.at? index with
    | some (.className _) => some (.reference :: s)
    | _ => none
  | invokespecial index =>
    match (p.methodDescriptor? index).bind MethodType.read with
    | some m => m.call? s
    | none => none
  | i => (i.pushed? p).map (· :: s)

/-- An instruction that pushes a constant does nothing else to the stack. -/
theorem run?_of_pushed? {p : ConstantPool} {i : Instruction} {k : StackType}
    (h : i.pushed? p = some k) (s : List StackType) : i.run? p s = some (k :: s) := by
  have hpush : (i.pushed? p).map (· :: s) = some (k :: s) := by
    rw [h]
    rfl
  cases i
  -- these instructions push no constant
  case nop | dup | ireturn | lreturn | freturn | dreturn | areturn | «return» | invokespecial |
    new | athrow | aload0 | aload1 => cases h
  all_goals exact hpush

/-- What is pushed takes the slots that the instruction adds. -/
theorem growth_of_pushed? {p : ConstantPool} {i : Instruction} {k : StackType}
    (h : i.pushed? p = some k) : i.growth p = k.slots := by
  cases i
  case ldc | ldcW | ldc2W =>
    obtain ⟨c, -, hc⟩ := Option.bind_eq_some_iff.mp h
    cases c <;> cases hc <;> rfl
  all_goals
    cases h
    try rfl

/-- An instruction adds the slots that `growth` tells. -/
theorem depth_run? {p : ConstantPool} {i : Instruction} {s t : List StackType}
    (h : i.run? p s = some t) : (depth t : Int) = depth s + i.growth p := by
  cases i
  case nop | «return» =>
    cases h
    simp [growth]
  case dup =>
    cases s with
    | nil => cases h
    | cons top rest =>
      simp only [run?] at h
      split at h
      · next hone =>
        cases h
        simp only [depth_cons, hone, growth]
        omega
      · cases h
  case ireturn | lreturn | freturn | dreturn | areturn | athrow =>
    have := depth_pop? h
    simp only [growth, StackType.slots] at this ⊢
    omega
  case new index =>
    simp only [run?] at h
    split at h
    · cases h
      simp only [depth_cons, StackType.slots, growth]
      omega
    · cases h
  case invokespecial index =>
    simp only [run?] at h
    split at h
    · next m hm =>
      rw [MethodType.depth_call? h, growth, hm]
    · cases h
  -- all others push a constant, or nothing that has a type
  all_goals
    simp only [run?, Option.map_eq_some_iff] at h
    obtain ⟨k, hk, rfl⟩ := h
    rw [growth_of_pushed? hk, depth_cons]
    omega

end Instruction

/-! ### Depths along a list of instructions -/

/-- The depths of the stack in front of a list of instructions and behind each of them, where every
instruction adds the slots that `growth` tells. -/
inductive Depths (p : ConstantPool) : List Instruction → List Nat → Prop where
  | last (n : Nat) : Depths p [] [n]
  | step {i : Instruction} {is : List Instruction} {n m : Nat} {ns : List Nat}
      (h : (m : Int) = n + i.growth p) (later : Depths p is (m :: ns)) :
      Depths p (i :: is) (n :: m :: ns)

/-- The slots in use after a list of instructions. -/
def StackUse.after (u : StackUse) (p : ConstantPool) (is : List Instruction) : StackUse :=
  is.foldl (fun u i => u.grow (i.growth p)) u

/-- The slots in use follow the depths of the stack, and the peak is the greatest of them. -/
theorem StackUse.peak_after {p : ConstantPool} {is : List Instruction} {n : Nat} {ns : List Nat}
    (h : Depths p is (n :: ns)) {u : StackUse} (hnow : u.now = n) (hpeak : u.now ≤ u.peak) :
    u.peak ≤ (u.after p is).peak ∧ (∀ m ∈ n :: ns, (m : Int) ≤ (u.after p is).peak) ∧
      ((u.after p is).peak = u.peak ∨ ∃ m ∈ n :: ns, (m : Int) = (u.after p is).peak) := by
  -- by induction on the instructions, from any slots in use that are those of the stack
  induction is generalizing n ns u with
  | nil =>
    cases h
    refine ⟨Int.le_refl _, ?_, .inl rfl⟩
    intro m hm
    rw [List.mem_singleton.mp hm, ← hnow]
    exact hpeak
  | cons i is ih =>
    cases h with
    | @step _ _ _ m ns hm later =>
      have hdepth : u.now + i.growth p = m := by rw [hnow, hm]
      have hgrow : u.grow (i.growth p) = ⟨m, max u.peak m⟩ := by
        rw [StackUse.grow, hdepth]
        congr 1
      obtain ⟨hle, hall, hsome⟩ := ih later (u := u.grow (i.growth p)) (by rw [hgrow])
        (by rw [hgrow]; exact Int.le_max_right ..)
      have hafter : u.after p (i :: is) = (u.grow (i.growth p)).after p is := rfl
      rw [hafter]
      generalize (u.grow (i.growth p)).after p is = final at hle hall hsome ⊢
      simp only [hgrow] at hle hsome
      refine ⟨by omega, ?_, ?_⟩
      · intro k hk
        rcases List.mem_cons.mp hk with rfl | hk
        · omega
        · exact hall k hk
      · -- the greatest depth is a later one, the one behind this instruction, or one before
        rcases hsome with heq | ⟨k, hk, heq⟩
        · by_cases hcmp : (m : Int) ≤ u.peak
          · exact .inl (by omega)
          · exact .inr ⟨m, by simp, by omega⟩
        · exact .inr ⟨k, List.mem_cons_of_mem _ hk, heq⟩

/-- The slots of the operand stack are the greatest depth, as a word of two bytes. -/
theorem exists_peak {p : ConstantPool} {is : List Instruction} {ns : List Nat}
    (h : Depths p is (0 :: ns)) :
    ∃ n ∈ 0 :: ns, (∀ m ∈ 0 :: ns, m ≤ n) ∧ maxStack p is = n.toUInt16 := by
  obtain ⟨-, hall, hsome⟩ := StackUse.peak_after h (u := .empty) rfl (Int.le_refl _)
  have hmax : maxStack p is = (StackUse.empty.after p is).peak.toNat.toUInt16 := rfl
  rw [hmax]
  generalize (StackUse.empty.after p is).peak = peak at hall hsome
  obtain ⟨n, hn, heq⟩ : ∃ n ∈ 0 :: ns, (n : Int) = peak := by
    rcases hsome with hzero | hsome
    · exact ⟨0, List.mem_cons_self, hzero.symm⟩
    · exact hsome
  refine ⟨n, hn, fun m hm => ?_, by rw [← heq, Int.toNat_natCast]⟩
  have := hall m hm
  omega

/-! ### Stacks along a list of instructions -/

/-- The stacks that a list of instructions passes through: the first one, and the one behind
each instruction. -/
def traced? (p : ConstantPool) : List Instruction → List StackType →
    Option (List (List StackType))
  | [], s => some [s]
  | i :: is, s => do
    let t ← i.run? p s
    let trail ← traced? p is t
    return s :: trail

/-- The trace goes on behind an instruction that runs. -/
theorem traced?_cons {p : ConstantPool} {i : Instruction} {is : List Instruction}
    {s t : List StackType} (h : i.run? p s = some t) :
    traced? p (i :: is) s = (traced? p is t).map (s :: ·) := by
  rw [traced?, h]
  cases htraced : traced? p is t <;> simp [htraced]

/-- The stacks have the depths that `growth` tells. -/
theorem depths_of_traced? {p : ConstantPool} {is : List Instruction} {s : List StackType}
    {trail : List (List StackType)} (h : traced? p is s = some trail) :
    ∃ later, trail = s :: later ∧ Depths p is (trail.map depth) := by
  induction is generalizing s trail with
  | nil =>
    cases h
    exact ⟨[], rfl, .last _⟩
  | cons i is ih =>
    cases hrun : i.run? p s with
    | none => simp [traced?, hrun] at h
    | some t =>
      rw [traced?_cons hrun, Option.map_eq_some_iff] at h
      obtain ⟨rest, hrest, rfl⟩ := h
      obtain ⟨later, rfl, hdepths⟩ := ih hrest
      exact ⟨_, rfl, .step (Instruction.depth_run? hrun) hdepths⟩

/-- The slots of the operand stack are the depth of the deepest stack. -/
theorem maxStack_isPeak {p : ConstantPool} {is : List Instruction}
    {trail : List (List StackType)} (h : traced? p is [] = some trail)
    (hbound : ∀ t ∈ trail, depth t < 65536) :
    (∀ t ∈ trail, depth t ≤ (maxStack p is).toNat) ∧
      ∃ t ∈ trail, depth t = (maxStack p is).toNat := by
  obtain ⟨later, rfl, hdepths⟩ := depths_of_traced? h
  obtain ⟨n, hn, hall, hmax⟩ := exists_peak hdepths
  rw [← depth_nil, ← List.map_cons, List.mem_map] at hn
  obtain ⟨t, ht, rfl⟩ := hn
  have hnat : (maxStack p is).toNat = depth t := by
    rw [hmax]
    simpa using hbound t ht
  rw [hnat]
  refine ⟨fun v hv => ?_, t, ht, rfl⟩
  exact hall _ (List.mem_map_of_mem (f := depth) hv)

end Defuse
