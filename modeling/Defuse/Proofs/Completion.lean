import Defuse.Proofs.ClassFormat

namespace Defuse

/-!
# Readers that run out of bytes

* `Reader.Completable` — a reader that looks at no byte beyond what it takes, and that, where the
  bytes run out, can be given further ones that it reads to their end;
* `Reader.Completable.bind` — readers one after another;
* `Constant.read_completable`, `ConstantPool.read_completable`, `Attribute.read_completable`,
  `Member.read_completable` — the parts of a class file;
* `ConstantPool.readSlots_eq_unknownTag` — where a pool cannot be read although there are bytes.
-/

namespace Reader

variable {α β : Type} {E : ReadError → Prop}

/-- A reader that fails only where the bytes run out, apart from errors of a given kind.  It reads
some bytes to their end; it looks at no byte beyond those it takes; and bytes that it has run out of
can be completed to some that it reads to their end. -/
structure Completable (E : ReadError → Prop) (r : Reader ReadError α) : Prop where
  begins : ∃ bs a, r bs = .ok (a, [])
  further : ∀ {bs a rest}, r bs = .ok (a, rest) → ∀ more, r (bs ++ more) = .ok (a, rest ++ more)
  completes : ∀ {bs}, r bs = .error .endOfInput → ∃ more a, r (bs ++ more) = .ok (a, [])
  fails : ∀ {bs e}, r bs = .error e → e = .endOfInput ∨ E e

/-- Two readers one after the other fail where one of them does. -/
theorem bind_eq_error {ε : Type} {r : Reader ε α} {f : α → Reader ε β} {bs : Bytes} {e : ε} :
    (r >>= f) bs = .error e ↔
      r bs = .error e ∨ ∃ a mid, r bs = .ok (a, mid) ∧ f a mid = .error e := by
  show Except.bind (r bs) (fun p => f p.1 p.2) = _ ↔ _
  cases r bs with
  | error x => simp [Except.bind]
  | ok p =>
    obtain ⟨a, mid⟩ := p
    simp only [Except.bind, reduceCtorEq, Except.ok.injEq, Prod.mk.injEq, false_or]
    constructor
    · intro h
      exact ⟨a, mid, ⟨rfl, rfl⟩, h⟩
    · rintro ⟨_, _, ⟨rfl, rfl⟩, h⟩
      exact h

/-- A reader that undoes a writer looks at no byte beyond those it takes. -/
theorem Undoes.further {r : Reader ReadError α} {P : α → Prop} {w : α → Bytes} (h : r.Undoes P w)
    {bs rest : Bytes} {a : α} (hread : r bs = .ok (a, rest)) (more : Bytes) :
    r (bs ++ more) = .ok (a, rest ++ more) := by
  obtain ⟨ha, rfl⟩ := (h _ _ _).mp hread
  rw [List.append_assoc]
  exact h.read ha _

namespace Completable

/-- A reader that reads nothing needs no more bytes. -/
theorem pure (a : α) : Completable E (pure a : Reader ReadError α) where
  begins := ⟨[], a, rfl⟩
  further h more := by
    cases h
    rfl
  completes h := by cases h
  fails h := by cases h

/-- Two readers, one behind the other, can be completed if each of them can. -/
theorem bind {r : Reader ReadError α} {f : α → Reader ReadError β} (hr : Completable E r)
    (hf : ∀ a, Completable E (f a)) : Completable E (r >>= f) where
  begins := by
    obtain ⟨bs, a, ha⟩ := hr.begins
    obtain ⟨cs, b, hb⟩ := (hf a).begins
    exact ⟨bs ++ cs, b, bind_eq_ok.mpr ⟨a, cs, hr.further ha cs, hb⟩⟩
  further h more := by
    -- the second reader goes on where the first one stopped, with the same bytes behind it
    obtain ⟨a, mid, ha, hb⟩ := bind_eq_ok.mp h
    exact bind_eq_ok.mpr ⟨a, mid ++ more, hr.further ha more, (hf a).further hb more⟩
  completes h := by
    rcases bind_eq_error.mp h with h | ⟨a, mid, ha, h⟩
    · -- the bytes ran out in the first reader, so the second one begins behind them
      obtain ⟨more, a, ha⟩ := hr.completes h
      obtain ⟨cs, b, hb⟩ := (hf a).begins
      refine ⟨more ++ cs, b, bind_eq_ok.mpr ⟨a, cs, ?_, hb⟩⟩
      rw [← List.append_assoc]
      exact hr.further ha cs
    · obtain ⟨more, b, hb⟩ := (hf a).completes h
      exact ⟨more, b, bind_eq_ok.mpr ⟨a, mid ++ more, hr.further ha more, hb⟩⟩
  fails h := by
    rcases bind_eq_error.mp h with h | ⟨a, mid, -, h⟩
    · exact hr.fails h
    · exact (hf a).fails h

/-- What is made of the result changes nothing about the bytes. -/
theorem map {r : Reader ReadError α} (hr : Completable E r) (f : α → β) :
    Completable E (f <$> r) := by
  have hmap : f <$> r = r >>= fun a => Pure.pure (f a) := (bind_pure_comp f r).symm
  rw [hmap]
  exact hr.bind fun a => .pure (f a)

/-! ### Words, byte strings and counted lists -/

/-- A missing byte can be supplied. -/
theorem byte : Completable E (byte .endOfInput) where
  begins := ⟨[0], 0, rfl⟩
  further h more := byte_undoes.further h more
  completes {bs} h := by
    cases bs with
    | nil => exact ⟨[0], 0, rfl⟩
    | cons b bs => cases h
  fails {bs e} h := by
    cases bs with
    | nil =>
      cases h
      exact .inl rfl
    | cons b bs => cases h

/-- The same reader twice, for the two halves of something. -/
theorem halves {r : Reader ReadError α} (h : Completable E r) (join : α → α → β) :
    Completable E (do let a ← r; let b ← r; return join a b) :=
  h.bind fun _ => h.bind fun _ => .pure _

theorem word16 : Completable E (word16 .endOfInput) := byte.halves Bytes.word16

theorem word32 : Completable E (word32 .endOfInput) := word16.halves Bytes.word32

theorem word64 : Completable E (word64 .endOfInput) := word32.halves Bytes.word64

/-- Missing bytes can be supplied. -/
theorem bytes (n : Nat) : Completable E (bytes .endOfInput n) where
  begins := ⟨List.replicate n 0, List.replicate n 0, (bytes_undoes n).read_all (by simp)⟩
  further h more := (bytes_undoes n).further h more
  completes {bs} h := by
    -- as many bytes as are missing
    have hlen : bs.length < n := by
      rw [Reader.bytes] at h
      split at h
      · cases h
      · next hshort =>
        rw [List.length_take] at hshort
        omega
    refine ⟨List.replicate (n - bs.length) 0, _, (bytes_undoes n).read_all ?_⟩
    rw [List.length_append, List.length_replicate]
    omega
  fails h := by
    rw [Reader.bytes] at h
    split at h
    · cases h
    · cases h
      exact .inl rfl

/-- Several items are read one after the other. -/
theorem many_succ_eq (item : Reader ReadError α) (n : Nat) :
    many item (n + 1) = (do
      let a ← item
      let as ← many item n
      return a :: as) := by
  funext bs
  rw [many_succ]
  show _ = Except.bind (item bs) fun p => Except.bind (many item n p.2) _
  cases item bs with
  | error e => rfl
  | ok p =>
    simp only [Except.bind]
    cases many item n p.2 <;> rfl

/-- Several items can be completed if each of them can. -/
theorem many {item : Reader ReadError α} (h : Completable E item) (n : Nat) :
    Completable E (many item n) := by
  induction n with
  | zero => exact .pure []
  | succ n ih =>
    rw [many_succ_eq]
    exact h.bind fun _ => ih.bind fun _ => .pure _

/-- A reader that reports no tag leaves this to the one behind it. -/
theorem bind_eq_unknownTag {r : Reader ReadError α} {f : α → Reader ReadError β}
    (hr : Completable (fun _ => False) r) {bs : Bytes} {left : Nat} {tag : UInt8} :
    (r >>= f) bs = .error (.unknownTag left tag) ↔
      ∃ a mid, r bs = .ok (a, mid) ∧ f a mid = .error (.unknownTag left tag) := by
  rw [bind_eq_error]
  constructor
  · rintro (h | h)
    · rcases hr.fails h with h | h
      · cases h
      · exact h.elim
    · exact h
  · exact .inr

/-- A tag is reported in front of a reader that reports none. -/
theorem eq_unknownTag_of_bind {r : Reader ReadError α} {f : α → Reader ReadError β}
    (hf : ∀ a, Completable (fun _ => False) (f a)) {bs : Bytes} {left : Nat} {tag : UInt8} :
    (r >>= f) bs = .error (.unknownTag left tag) ↔ r bs = .error (.unknownTag left tag) := by
  rw [bind_eq_error]
  constructor
  · rintro (h | ⟨a, mid, -, h⟩)
    · exact h
    · rcases (hf a).fails h with h | h
      · cases h
      · exact h.elim
  · exact .inl

end Completable

end Reader

open Reader

/-! ### Constants -/

namespace Constant

variable {E : ReadError → Prop}

theorem index_completable : Completable E index := .word16

theorem indexPair_completable (make : UInt16 → UInt16 → Constant) :
    Completable E (indexPair make) :=
  index_completable.bind fun _ => index_completable.bind fun _ => .pure _

/-- Behind the tag of a constant stand fields that can be completed. -/
theorem readFields_completable {tag : UInt8} {c : Constant} (h : c.tag? = some tag) :
    Completable E (readFields tag) := by
  -- one case for each constant; its tag decides how the fields are read
  cases c
  case unusable => cases h
  all_goals cases h
  case utf8 => exact index_completable.bind fun n => (Completable.bytes n.toNat).map _
  case methodHandle => exact Completable.byte.bind fun _ => index_completable.map _
  case integer | float => exact Completable.word32.map _
  case long | double => exact Completable.word64.map _
  case className | string | methodType | moduleName | packageName => exact index_completable.map _
  all_goals exact indexPair_completable _

/-- One constant of each kind that has a tag. -/
def kinds : List Constant :=
  [.utf8 [], .integer 0, .float 0, .long 0, .double 0, .className 0, .string 0, .fieldRef 0 0,
   .methodRef 0 0, .interfaceMethodRef 0 0, .nameAndType 0 0, .methodHandle 0 0, .methodType 0,
   .dynamic 0 0, .invokeDynamic 0 0, .moduleName 0, .packageName 0]

/-- A tag that no constant has is reported, with the number of bytes from it to the end. -/
theorem readFields_unknown {tag : UInt8} (h : ∀ c : Constant, c.tag? ≠ some tag) (bs : Bytes) :
    readFields tag bs = .error (.unknownTag (bs.length + 1) tag) := by
  have hkinds : ∀ c ∈ kinds, c.tag? ≠ some tag := fun c _ => h c
  unfold readFields
  split
  case h_18 => rfl
  all_goals exact absurd hkinds (by decide)

/-- A constant starts with its tag. -/
theorem read_cons (tag : UInt8) (bs : Bytes) : Constant.read (tag :: bs) = readFields tag bs := rfl

/-- Reading a constant fails where the bytes run out, or at a tag that no constant has. -/
theorem read_eq_error {bs : Bytes} {e : ReadError} (h : Constant.read bs = .error e) :
    e = .endOfInput ∨ ∃ tag rest, bs = tag :: rest ∧ (∀ c : Constant, c.tag? ≠ some tag) ∧
      e = .unknownTag (rest.length + 1) tag := by
  cases bs with
  | nil =>
    cases h
    exact .inl rfl
  | cons tag rest =>
    rw [read_cons] at h
    -- only the fields of a known tag can be cut short, and they have no tags of their own
    by_cases hknown : ∃ c : Constant, c.tag? = some tag
    · obtain ⟨c, hc⟩ := hknown
      have hshort := (readFields_completable (E := fun _ => False) hc).fails h
      exact .inl (hshort.resolve_right id)
    · have hunknown : ∀ c : Constant, c.tag? ≠ some tag := not_exists.mp hknown
      rw [readFields_unknown hunknown] at h
      cases h
      exact .inr ⟨tag, rest, rfl, hunknown, rfl⟩

end Constant

/-- A tag that no constant has was met. -/
def ReadError.IsUnknownTag (e : ReadError) : Prop := ∃ left tag, e = unknownTag left tag

/-- Where there is not even a tag, a constant of any kind completes the bytes. -/
theorem Constant.read_completable : Completable ReadError.IsUnknownTag Constant.read where
  begins := ⟨_, _, read_undoes.read_all (a := .className 0) ⟨by simp, rfl⟩⟩
  further h more := read_undoes.further h more
  completes {bs} h := by
    cases bs with
    | nil => exact ⟨_, _, read_undoes.read_all (a := .className 0) ⟨by simp, rfl⟩⟩
    | cons tag rest =>
      by_cases hknown : ∃ c : Constant, c.tag? = some tag
      · obtain ⟨c, hc⟩ := hknown
        exact (readFields_completable (E := fun _ => False) hc).completes h
      · rw [read_cons, readFields_unknown (not_exists.mp hknown)] at h
        cases h
  fails h := by
    rcases read_eq_error h with rfl | ⟨tag, rest, -, -, rfl⟩
    · exact .inl rfl
    · exact .inr ⟨_, tag, rfl⟩

/-! ### Pools -/

namespace ConstantPool

/-- The constants that are left to read can be completed: their slots get fewer with each of
them. -/
theorem readSlots_completable (acc : List Constant) (left : Nat) :
    Completable ReadError.IsUnknownTag (readSlots acc left) := by
  induction left using Nat.strongRecOn generalizing acc with
  | ind left ih =>
    cases left with
    | zero =>
      have hdone : readSlots acc 0 = pure acc.reverse := rfl
      rw [hdone]
      exact .pure _
    | succ left =>
      rw [readSlots_succ]
      refine Constant.read_completable.bind fun c => ih _ ?_ _
      have := c.slots_pos
      omega

/-- A pool can be completed, unless it has an unknown tag. -/
theorem read_completable : Completable ReadError.IsUnknownTag ConstantPool.read :=
  Constant.index_completable.bind fun _ => (readSlots_completable _ _).bind fun _ => .pure _

/-- Constants leave some of a number of slots, and behind them stands a tag that none has. -/
structure MeetsTag (left : Nat) (cs : List Constant) (tag : UInt8) : Prop where
  storable : ∀ c ∈ cs, c.IsStorable
  room : (cs.flatMap Constant.slots).length < left
  unknown : ∀ c : Constant, c.tag? ≠ some tag

/-- Slots are read up to a tag that no constant has. -/
theorem readSlots_eq_unknownTag {acc : List Constant} {left place : Nat} {bs : Bytes}
    {tag : UInt8} :
    readSlots acc left bs = .error (.unknownTag place tag) ↔
      ∃ cs rest, MeetsTag left cs tag ∧ bs = cs.flatMap Constant.write ++ tag :: rest ∧
        place = rest.length + 1 := by
  -- by induction on the slots that are left: a constant takes one or two of them
  induction left using Nat.strongRecOn generalizing acc bs with
  | ind left ih =>
    cases left with
    | zero =>
      constructor
      · intro h
        cases h
      · rintro ⟨cs, rest, hmeets, -⟩
        exact absurd hmeets.room (Nat.not_lt_zero _)
    | succ left =>
      have hlt (c : Constant) : left + 1 - c.slots.length < left + 1 := by
        have := c.slots_pos
        omega
      simp only [readSlots_succ, bind_eq_error, Constant.read_undoes _ _ _, ih _ (hlt _)]
      constructor
      · rintro (h | ⟨c, _, ⟨hc, rfl⟩, cs, rest, hmeets, rfl, rfl⟩)
        · rcases Constant.read_eq_error h with h | ⟨_, rest, rfl, hunknown, h⟩
          · cases h
          · cases h
            exact ⟨[], rest, ⟨List.forall_mem_nil _, Nat.succ_pos left, hunknown⟩, rfl, rfl⟩
        · refine ⟨c :: cs, rest, ⟨?_, ?_, hmeets.unknown⟩, by simp, rfl⟩
          · simpa using ⟨hc, hmeets.storable⟩
          · have := hmeets.room
            rw [List.flatMap_cons, List.length_append]
            omega
      · rintro ⟨cs, rest, hmeets, rfl, rfl⟩
        cases cs with
        | nil => exact .inl (Constant.readFields_unknown hmeets.unknown rest)
        | cons c cs =>
          obtain ⟨hstorable, hroom, hunknown⟩ := hmeets
          simp only [List.mem_cons, forall_eq_or_imp] at hstorable
          rw [List.flatMap_cons, List.length_append] at hroom
          exact .inr ⟨c, _, ⟨hstorable.1, by simp⟩, cs, rest,
            ⟨hstorable.2, by omega, hunknown⟩, rfl, rfl⟩

/-- A pool is read up to a tag that no constant has. -/
theorem read_eq_unknownTag {bs : Bytes} {left : Nat} {tag : UInt8} :
    ConstantPool.read bs = .error (.unknownTag left tag) ↔
      ∃ size cs rest, MeetsTag (UInt16.toNat size - 1) cs tag ∧
        bs = Bytes.ofWord16 size ++ (cs.flatMap Constant.write ++ tag :: rest) ∧
        left = rest.length + 1 := by
  simp only [ConstantPool.read, Constant.index_completable.bind_eq_unknownTag,
    Completable.eq_unknownTag_of_bind fun _ => Completable.pure _, Constant.index_undoes _ _ _,
    true_and, readSlots_eq_unknownTag]
  constructor
  · rintro ⟨size, _, rfl, cs, rest, hmeets, rfl, rfl⟩
    exact ⟨size, cs, rest, hmeets, rfl, rfl⟩
  · rintro ⟨size, cs, rest, hmeets, rfl, rfl⟩
    exact ⟨size, _, rfl, cs, rest, hmeets, rfl, rfl⟩

end ConstantPool

/-! ### Attributes and members -/

variable {E : ReadError → Prop}

/-- An attribute can be completed, whatever length it starts with. -/
theorem Attribute.read_completable : Completable E Attribute.read :=
  Completable.word16.bind fun _ => Completable.word32.bind fun length =>
    (Completable.bytes length.toNat).bind fun _ => .pure _

/-- A field or method can be completed, whatever count it starts with. -/
theorem Member.read_completable : Completable E Member.read :=
  Completable.word16.bind fun _ => Completable.word16.bind fun _ => Completable.word16.bind fun _ =>
    Completable.word16.bind fun count =>
      (Completable.many Attribute.read_completable count.toNat).bind fun _ => .pure _

end Defuse
