import Defuse.Class.Pool
import Defuse.Proofs.Reading

namespace Defuse

open Reader

/-!
# The format of the constant pool

* `Constant.read_undoes` — reading a constant undoes writing it, for all constants that the
  format has room for;
* `ConstantPool.entries` — the constants of a pool without the second slots of wide ones;
* `ConstantPool.IsReadable` — what a pool is that was read: its slots are laid out from its
  entries, and these fill the stored count, which only the last of them may overrun;
* `ConstantPool.read_undoes` — reading a pool undoes writing it.
-/

/-! ### Constants -/

namespace Constant

/-- What a class file can hold: not a second slot, and no text too long to be counted. -/
def IsStorable (c : Constant) : Prop := c ≠ unusable ∧ c.isWritable = true

theorem index_undoes : index.Undoes (fun _ => True) Bytes.ofWord16 := word16_undoes

/-- Two indices are read off the front, one after the other. -/
theorem indexPair_eq_ok {make : UInt16 → UInt16 → Constant} {bs rest : Bytes} {c : Constant} :
    indexPair make bs = .ok (c, rest) ↔
      ∃ a b, bs = Bytes.ofWord16 a ++ Bytes.ofWord16 b ++ rest ∧ make a b = c := by
  simp only [indexPair, bind_eq_ok, index_undoes _ _ _, pure_eq_ok, true_and]
  constructor
  · rintro ⟨a, _, rfl, b, _, rfl, rfl, rfl⟩
    exact ⟨a, b, by simp, rfl⟩
  · rintro ⟨a, b, rfl, rfl⟩
    exact ⟨a, _, by simp, b, _, rfl, rfl, rfl⟩

/-- Behind a tag stand the fields of a constant with this tag. -/
theorem readFields_eq_ok {tag : UInt8} {bs rest : Bytes} {c : Constant} :
    readFields tag bs = .ok (c, rest) ↔
      c.tag? = some tag ∧ c.isWritable = true ∧ bs = c.writeFields ++ rest := by
  constructor
  · intro h
    unfold readFields at h
    -- one case for each tag: the fields are those that the constant writes
    split at h
    all_goals simp only [map_eq_ok, bind_eq_ok, indexPair_eq_ok, index_undoes _ _ _,
      word32_undoes _ _ _, word64_undoes _ _ _, bytes_undoes _ _ _ _, byte_undoes _ _ _,
      true_and, reduceCtorEq] at h
    case h_1 =>
      obtain ⟨n, _, rfl, bytes, ⟨hlen, rfl⟩, rfl⟩ := h
      have := n.toNat_lt
      exact ⟨rfl, by simp [isWritable]; omega, by simp [writeFields, hlen]⟩
    case h_12 =>
      obtain ⟨kind, _, rfl, a, rfl, rfl⟩ := h
      exact ⟨rfl, rfl, by simp [writeFields]⟩
    case h_8 | h_9 | h_10 | h_11 | h_14 | h_15 =>
      obtain ⟨a, b, rfl, rfl⟩ := h
      exact ⟨rfl, rfl, rfl⟩
    all_goals
      obtain ⟨a, rfl, rfl⟩ := h
      exact ⟨rfl, rfl, by simp [writeFields]⟩
  · rintro ⟨htag, hfits, rfl⟩
    -- one case for each constant, which is read in the branch of its tag
    cases c
    case unusable => simp [tag?] at htag
    all_goals
      simp only [tag?, Option.some.injEq] at htag
      subst htag
    case utf8 bytes =>
      simp only [isWritable, decide_eq_true_eq] at hfits
      have hlen := Bytes.toNat_toUInt16_eq_iff.mpr hfits
      simp only [readFields, writeFields, map_eq_ok, bind_eq_ok, index_undoes _ _ _,
        bytes_undoes _ _ _ _, true_and]
      exact ⟨_, _, List.append_assoc .., bytes, ⟨hlen.symm, rfl⟩, rfl⟩
    case integer value =>
      simp only [readFields, writeFields, map_eq_ok, word32_undoes _ _ _, true_and]
      exact ⟨_, rfl, by simp⟩
    case long value =>
      simp only [readFields, writeFields, map_eq_ok, word64_undoes _ _ _, true_and]
      exact ⟨_, rfl, by simp⟩
    case methodHandle kind target =>
      simp only [readFields, writeFields, map_eq_ok, bind_eq_ok, byte_undoes _ _ _,
        index_undoes _ _ _, true_and]
      exact ⟨kind, _, rfl, target, rfl, rfl⟩
    all_goals simp [readFields, writeFields, map_eq_ok, indexPair_eq_ok, index_undoes _ _ _,
      word32_undoes _ _ _, word64_undoes _ _ _]

/-- Reading a constant undoes writing it. -/
theorem read_undoes : Constant.read.Undoes IsStorable write := by
  intro bs c rest
  simp only [Constant.read, bind_eq_ok, byte_undoes _ _ _, true_and, readFields_eq_ok]
  constructor
  · rintro ⟨tag, _, rfl, htag, hfits, rfl⟩
    refine ⟨⟨?_, hfits⟩, by simp [write, htag]⟩
    rintro rfl
    simp [tag?] at htag
  · rintro ⟨⟨hc, hfits⟩, rfl⟩
    cases htag : c.tag? with
    | none => cases c <;> simp [tag?] at htag hc
    | some tag => exact ⟨tag, _, by simp [write, htag], rfl, hfits, rfl⟩

/-- A second slot takes no bytes. -/
@[simp] theorem write_unusable : write unusable = [] := rfl

/-- A constant takes a slot at least. -/
theorem slots_pos (c : Constant) : 0 < c.slots.length :=
  List.length_pos_iff.mpr c.slots_ne_nil

/-- In the slots of a constant stand the constant and, if it is wide, an unusable one. -/
theorem mem_slots {c d : Constant} (h : d ∈ c.slots) : d = c ∨ d = unusable := by
  unfold slots at h
  split at h
  · simpa using h
  · exact .inl (by simpa using h)

/-- The slots of a constant can be written if the constant can. -/
theorem all_isWritable_slots (c : Constant) : c.slots.all isWritable = c.isWritable := by
  have hsecond : unusable.isWritable = true := rfl
  unfold slots
  split <;> simp [hsecond]

end Constant

/-! ### Pools -/

namespace ConstantPool

/-- Constants take up a number of slots, which the last of them may overrun. -/
def Fills : List Constant → Nat → Prop
  | [], 0 => True
  | [], _ + 1 => False
  | _ :: _, 0 => False
  | c :: cs, n + 1 => Fills cs (n + 1 - c.slots.length)

/-- Constants fill exactly the slots they take. -/
theorem fills_length (cs : List Constant) : Fills cs (cs.flatMap Constant.slots).length := by
  induction cs with
  | nil => trivial
  | cons c cs ih =>
    have hpos := c.slots_pos
    obtain ⟨n, hn⟩ : ∃ n, ((c :: cs).flatMap Constant.slots).length = n + 1 :=
      Nat.exists_eq_add_one.mpr (by simp; omega)
    rw [hn]
    have hrest : n + 1 - c.slots.length = (cs.flatMap Constant.slots).length := by
      rw [← hn, List.flatMap_cons, List.length_append]
      omega
    simpa only [Fills, hrest] using ih

/-- Only the last constant overruns, and by no more than one slot. -/
theorem Fills.length_le {cs : List Constant} {n : Nat} (h : Fills cs n) :
    n ≤ (cs.flatMap Constant.slots).length ∧ (cs.flatMap Constant.slots).length ≤ n + 1 := by
  induction cs generalizing n with
  | nil =>
    cases n with
    | zero => simp
    | succ n => exact h.elim
  | cons c cs ih =>
    cases n with
    | zero => exact h.elim
    | succ n =>
      have hwidth : c.slots.length ≤ 2 := by
        rw [Constant.length_slots]
        split <;> decide
      have := ih h
      rw [List.flatMap_cons, List.length_append]
      -- a wide constant in the last slot leaves nothing to fill
      rcases cs with _ | ⟨d, ds⟩
      · simp only [List.flatMap_nil, List.length_nil] at this ⊢
        omega
      · have : n + 1 - c.slots.length ≠ 0 := by
          intro h0
          rw [Fills, h0] at h
          exact h
        omega

/-- One constant is read, then those for the slots that it leaves. -/
theorem readSlots_succ (acc : List Constant) (left : Nat) :
    readSlots acc (left + 1) = (do
      let c ← Constant.read
      readSlots (c.slots.reverse ++ acc) (left + 1 - c.slots.length)) := by
  funext bs
  show _ = Except.bind (Constant.read bs) _
  rw [readSlots]
  cases Constant.read bs with
  | error e => rfl
  | ok p =>
    obtain ⟨c, mid⟩ := p
    simp only [Except.bind, Constant.slots]
    cases c.isWide with
    | false => rfl
    | true =>
      cases left with
      | zero => rfl
      | succ left => simp

/-- Slots are read as the constants that fill them. -/
theorem readSlots_eq_ok {acc slots : List Constant} {left : Nat} {bs rest : Bytes} :
    readSlots acc left bs = .ok (slots, rest) ↔
      ∃ cs, Fills cs left ∧ (∀ c ∈ cs, c.IsStorable) ∧
        slots = acc.reverse ++ cs.flatMap Constant.slots ∧
        bs = cs.flatMap Constant.write ++ rest := by
  -- by induction on the slots that are left: a constant takes one or two of them
  induction left using Nat.strongRecOn generalizing acc bs with
  | ind left ih =>
    cases left with
    | zero =>
      simp only [readSlots, Except.ok.injEq, Prod.mk.injEq]
      constructor
      · rintro ⟨rfl, rfl⟩
        exact ⟨[], trivial, by simp, by simp, by simp⟩
      · rintro ⟨cs, hfills, -, rfl, rfl⟩
        cases cs with
        | nil => simp
        | cons c cs => exact hfills.elim
    | succ left =>
      have hlt (c : Constant) : left + 1 - c.slots.length < left + 1 := by
        have := c.slots_pos
        omega
      simp only [readSlots_succ, bind_eq_ok, Constant.read_undoes _ _ _, ih _ (hlt _)]
      constructor
      · rintro ⟨c, _, ⟨hc, rfl⟩, cs, hfills, hcs, rfl, rfl⟩
        exact ⟨c :: cs, hfills, by simpa using ⟨hc, hcs⟩, by simp, by simp⟩
      · rintro ⟨cs, hfills, hcs, rfl, rfl⟩
        cases cs with
        | nil => exact hfills.elim
        | cons c cs =>
          simp only [List.mem_cons, forall_eq_or_imp] at hcs
          exact ⟨c, _, ⟨hcs.1, by simp⟩, cs, hfills, hcs.2, by simp, rfl⟩

/-- The constants of a pool, without the second slots of wide ones. -/
def entries (p : ConstantPool) : List Constant := p.slots.filter (· ≠ .unusable)

/-- Every wide constant has its second slot, and there are no other second slots. -/
def IsLaidOut (p : ConstantPool) : Prop := p.slots = p.entries.flatMap Constant.slots

/-- The stored count is one more than the number of slots. -/
def IsCounted (p : ConstantPool) : Prop := p.storedSize.toNat = p.slots.length + 1

/-- A pool as it can be read. -/
structure IsReadable (p : ConstantPool) : Prop where
  laidOut : p.IsLaidOut
  fills : Fills p.entries (p.storedSize.toNat - 1)
  writable : p.isWritable = true

/-- A pool cannot be written if it has a text that is too long to be counted. -/
theorem isWritable_eq_false_iff {p : ConstantPool} :
    p.isWritable = false ↔ ∃ text, .utf8 text ∈ p.slots ∧ 65535 < text.length := by
  rw [isWritable, List.all_eq_false]
  constructor
  · rintro ⟨c, hc, hlong⟩
    cases c with
    | utf8 text =>
      have hlength : ¬ text.length < 0x10000 := by simpa [Constant.isWritable] using hlong
      exact ⟨text, hc, by omega⟩
    | _ => exact absurd rfl hlong
  · rintro ⟨text, hmem, hlong⟩
    refine ⟨.utf8 text, hmem, ?_⟩
    rw [Constant.isWritable, decide_eq_true_eq]
    omega

/-- Slots that are laid out from constants have these as entries. -/
theorem filter_flatMap_slots {cs : List Constant} (h : ∀ c ∈ cs, c ≠ .unusable) :
    (cs.flatMap Constant.slots).filter (· ≠ .unusable) = cs := by
  induction cs with
  | nil => rfl
  | cons c cs ih =>
    simp only [List.mem_cons, forall_eq_or_imp] at h
    have hc : c.slots.filter (· ≠ .unusable) = [c] := by
      unfold Constant.slots
      split <;> simp [h.1]
    rw [List.flatMap_cons, List.filter_append, hc, ih h.2]
    rfl

/-- The entries of a pool are its usable constants. -/
theorem ne_unusable_of_mem_entries {p : ConstantPool} {c : Constant} (h : c ∈ p.entries) :
    c ≠ .unusable := by
  simpa using (List.mem_filter.mp h).2

/-- The bytes of a pool are those of its entries. -/
theorem flatMap_write_entries (p : ConstantPool) :
    p.entries.flatMap Constant.write = p.slots.flatMap Constant.write := by
  unfold entries
  induction p.slots with
  | nil => rfl
  | cons c cs ih =>
    by_cases h : c = .unusable
    · subst h
      simpa using ih
    · rw [List.filter_cons_of_pos (by simpa using h), List.flatMap_cons, List.flatMap_cons, ih]

/-- Reading a pool undoes writing it. -/
theorem read_undoes : ConstantPool.read.Undoes IsReadable write := by
  intro bs p rest
  simp only [ConstantPool.read, bind_eq_ok, Constant.index_undoes _ _ _, true_and,
    readSlots_eq_ok, pure_eq_ok]
  constructor
  · rintro ⟨size, _, rfl, slots, _, ⟨cs, hfills, hcs, hslots, rfl⟩, rfl, rfl⟩
    simp only [List.reverse_nil, List.nil_append] at hslots
    subst hslots
    -- the slots are those of the constants that were read
    have hentries : entries ⟨size, cs.flatMap Constant.slots⟩ = cs :=
      filter_flatMap_slots fun c hc => (hcs c hc).1
    refine ⟨⟨?_, ?_, ?_⟩, ?_⟩
    · rw [IsLaidOut, hentries]
    · rw [hentries]
      exact hfills
    · simp only [isWritable, List.all_eq_true, List.mem_flatMap, forall_exists_index, and_imp]
      intro x c hc hx
      rcases Constant.mem_slots hx with rfl | rfl
      · exact (hcs x hc).2
      · rfl
    · rw [write, ← flatMap_write_entries, hentries]
      simp
  · rintro ⟨h, rfl⟩
    refine ⟨p.storedSize, _, by rw [write, List.append_assoc], p.slots, _, ⟨p.entries, h.fills,
      ?_, ?_, ?_⟩, rfl, rfl⟩
    · intro c hc
      exact ⟨ne_unusable_of_mem_entries hc,
        List.all_eq_true.mp h.writable c (List.mem_filter.mp hc).1⟩
    · exact h.laidOut
    · rw [flatMap_write_entries]

end ConstantPool

end Defuse
