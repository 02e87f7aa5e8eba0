import Defuse.Bytes

namespace Defuse

/-!
# Readers undo writers

A reader is described by what it accepts: the values it can yield, and the bytes that it takes
for each of them.

* `Bytes.Halves` — a word as two halves, which give a word of any width from narrower ones;
* `Reader.Undoes r P w` — `r` yields exactly the values with the property `P`, each from
  exactly the bytes that `w` writes for it, whatever follows;
* `Reader.bind_eq_ok` — readers one after another;
* `Reader.word16_undoes` … `Reader.many_undoes` — words, byte strings and counted lists.
-/

/-! ### Words -/

namespace Bytes

/-- A number is stored in two bytes exactly when it fits. -/
theorem toNat_toUInt16_eq_iff {n : Nat} : n.toUInt16.toNat = n ↔ n < 2 ^ 16 := by
  rw [Nat.toUInt16_eq, UInt16.toNat_ofNat']
  exact Nat.mod_eq_iff_lt (by decide)

/-- A number is stored in four bytes exactly when it fits. -/
theorem toNat_toUInt32_eq_iff {n : Nat} : n.toUInt32.toNat = n ↔ n < 2 ^ 32 := by
  rw [Nat.toUInt32_eq, UInt32.toNat_ofNat']
  exact Nat.mod_eq_iff_lt (by decide)

/-- Two halves make a word, and the word gives both of them back. -/
structure Halves {α β : Type} (join : α → α → β) (high low : β → α) : Prop where
  join_halves : ∀ w, join (high w) (low w) = w
  high_join : ∀ a b, high (join a b) = a
  low_join : ∀ a b, low (join a b) = b

/-- Halves are halves in another form too, if both forms can be told apart alike. -/
theorem Halves.of_injective {α β α' β' : Type} {join : α → α → β} {high low : β → α}
    {join' : α' → α' → β'} {high' low' : β' → α'} (h : Halves join' high' low') {f : α → α'}
    {g : β → β'} (hf : ∀ a b, f a = f b → a = b) (hg : ∀ v w, g v = g w → v = w)
    (hjoin : ∀ a b, g (join a b) = join' (f a) (f b)) (hhigh : ∀ w, f (high w) = high' (g w))
    (hlow : ∀ w, f (low w) = low' (g w)) : Halves join high low where
  join_halves w := hg _ _ (by rw [hjoin, hhigh, hlow, h.join_halves])
  high_join a b := hf _ _ (by rw [hhigh, hjoin, h.high_join])
  low_join a b := hf _ _ (by rw [hlow, hjoin, h.low_join])

/-- The halves of words of bits, whatever their number. -/
theorem halves_bitVec (n : Nat) : Halves
    (fun high low : BitVec n => high.setWidth (n + n) <<< n ||| low.setWidth (n + n))
    (fun w => (w >>> n).setWidth n) (fun w => w.setWidth n) where
  join_halves w := by
    apply BitVec.eq_of_getLsbD_eq
    intro i hi
    -- below the middle stand the bits of the low half, from there on those of the high one
    by_cases hlow : i < n
    · simp [hlow, hi]
    · have hhigh : i - n < n := by omega
      have hback : n + (i - n) = i := by omega
      simp [hlow, hi, hhigh, hback]
  high_join a b := by
    apply BitVec.eq_of_getLsbD_eq
    intro i hi
    have hwide : i < n + n := by omega
    simp [hi, hwide]
  low_join a b := by
    ext i hi
    simp

-- the fixed widths differ in nothing but this number
/-- A word of two bytes consists of two bytes. -/
theorem halves16 : Halves word16 (fun w => (w >>> 8).toUInt8) UInt16.toUInt8 :=
  (halves_bitVec 8).of_injective (fun _ _ => UInt8.toBitVec_inj.mp)
    (fun _ _ => UInt16.toBitVec_inj.mp) (fun _ _ => rfl) (fun _ => rfl) (fun _ => rfl)

theorem halves32 : Halves word32 (fun w => (w >>> 16).toUInt16) UInt32.toUInt16 :=
  (halves_bitVec 16).of_injective (fun _ _ => UInt16.toBitVec_inj.mp)
    (fun _ _ => UInt32.toBitVec_inj.mp) (fun _ _ => rfl) (fun _ => rfl) (fun _ => rfl)

theorem halves64 : Halves word64 (fun w => (w >>> 32).toUInt32) UInt64.toUInt32 :=
  (halves_bitVec 32).of_injective (fun _ _ => UInt32.toBitVec_inj.mp)
    (fun _ _ => UInt64.toBitVec_inj.mp) (fun _ _ => rfl) (fun _ => rfl) (fun _ => rfl)

/-- The bytes of a word are those it is made of. -/
theorem ofWord16_word16 (a b : UInt8) : ofWord16 (word16 a b) = [a, b] :=
  congr (congrArg (fun high low => [high, low]) (halves16.high_join a b)) (halves16.low_join a b)

/-- A word is known by its bytes. -/
theorem ofWord16_inj {v w : UInt16} (h : ofWord16 v = ofWord16 w) : v = w := by
  simp only [ofWord16, List.cons.injEq, and_true] at h
  calc v = word16 (v >>> 8).toUInt8 v.toUInt8 := (halves16.join_halves v).symm
    _ = word16 (w >>> 8).toUInt8 w.toUInt8 := by rw [h.1, h.2]
    _ = w := halves16.join_halves w

end Bytes

/-! ### Readers -/

namespace Reader

variable {ε α β : Type} {short : ε}

/-- A reader yields exactly the values with a property, each from the bytes that are written
for it. -/
def Undoes (r : Reader ε α) (P : α → Prop) (w : α → Bytes) : Prop :=
  ∀ bs a rest, r bs = .ok (a, rest) ↔ P a ∧ bs = w a ++ rest

/-- What is written is read, and what follows is left. -/
theorem Undoes.read {r : Reader ε α} {P : α → Prop} {w : α → Bytes} (h : r.Undoes P w) {a : α}
    (ha : P a) (rest : Bytes) : r (w a ++ rest) = .ok (a, rest) :=
  (h _ _ _).mpr ⟨ha, rfl⟩

/-- What is written is read, and nothing is left of it. -/
theorem Undoes.read_all {r : Reader ε α} {P : α → Prop} {w : α → Bytes} (h : r.Undoes P w) {a : α}
    (ha : P a) : r (w a) = .ok (a, []) := by
  have hread := h.read ha []
  rwa [List.append_nil] at hread

/-- Two readers one after the other. -/
theorem bind_eq_ok {r : Reader ε α} {f : α → Reader ε β} {bs rest : Bytes} {b : β} :
    (r >>= f) bs = .ok (b, rest) ↔
      ∃ a mid, r bs = .ok (a, mid) ∧ f a mid = .ok (b, rest) := by
  show Except.bind (r bs) (fun p => f p.1 p.2) = _ ↔ _
  cases r bs with
  | error e => simp [Except.bind]
  | ok p =>
    obtain ⟨a, mid⟩ := p
    simp only [Except.bind, Except.ok.injEq, Prod.mk.injEq]
    constructor
    · intro h
      exact ⟨a, mid, ⟨rfl, rfl⟩, h⟩
    · rintro ⟨_, _, ⟨rfl, rfl⟩, h⟩
      exact h

/-- A reader that only returns takes no bytes. -/
theorem pure_eq_ok {a b : α} {bs rest : Bytes} :
    (pure a : Reader ε α) bs = .ok (b, rest) ↔ a = b ∧ bs = rest := by
  show Except.ok (a, bs) = _ ↔ _
  simp

/-- What is made of the result takes no bytes. -/
theorem map_eq_ok {r : Reader ε α} {f : α → β} {bs rest : Bytes} {b : β} :
    (f <$> r) bs = .ok (b, rest) ↔ ∃ a, r bs = .ok (a, rest) ∧ f a = b := by
  show Except.map (fun p => (f p.1, p.2)) (r bs) = _ ↔ _
  cases r bs with
  | error e => simp [Except.map]
  | ok p =>
    obtain ⟨a, mid⟩ := p
    simp only [Except.map, Except.ok.injEq, Prod.mk.injEq]
    constructor
    · rintro ⟨rfl, rfl⟩
      exact ⟨a, ⟨rfl, rfl⟩, rfl⟩
    · rintro ⟨_, ⟨rfl, rfl⟩, rfl⟩
      exact ⟨rfl, rfl⟩

/-- A byte stands for itself. -/
theorem byte_undoes : (byte short).Undoes (fun _ => True) ([·]) := by
  intro bs b rest
  cases bs with
  | nil => simp
  | cons c cs => simp

/-- What is made of two halves is written as one behind the other. -/
theorem Undoes.halves {r : Reader ε α} {w : α → Bytes} {join : α → α → β} {high low : β → α}
    (hr : r.Undoes (fun _ => True) w) (h : Bytes.Halves join high low) :
    Undoes (do let a ← r; let b ← r; return join a b) (fun _ => True)
      (fun v => w (high v) ++ w (low v)) := by
  intro bs v rest
  simp only [bind_eq_ok, hr _ _ _, pure_eq_ok, true_and]
  constructor
  · rintro ⟨a, _, rfl, b, _, rfl, rfl, rfl⟩
    rw [h.high_join, h.low_join, List.append_assoc]
  · rintro rfl
    exact ⟨_, _, List.append_assoc _ _ _, _, _, rfl, h.join_halves v, rfl⟩

/-- A word of two bytes is read back from them. -/
theorem word16_undoes : (word16 short).Undoes (fun _ => True) Bytes.ofWord16 :=
  byte_undoes.halves Bytes.halves16

theorem word32_undoes : (word32 short).Undoes (fun _ => True) Bytes.ofWord32 :=
  word16_undoes.halves Bytes.halves32

theorem word64_undoes : (word64 short).Undoes (fun _ => True) Bytes.ofWord64 :=
  word32_undoes.halves Bytes.halves64

/-- As many bytes as told stand for themselves. -/
theorem bytes_undoes (n : Nat) : (bytes short n).Undoes (·.length = n) id := by
  intro bs front rest
  constructor
  · intro h
    simp only [bytes] at h
    split at h
    · next hlen =>
      simp only [Except.ok.injEq, Prod.mk.injEq] at h
      obtain ⟨rfl, rfl⟩ := h
      exact ⟨hlen, (List.take_append_drop n bs).symm⟩
    · simp at h
  · rintro ⟨rfl, rfl⟩
    exact bytes_append short front rest

/-- One item is read, then the others. -/
theorem many_succ_eq_ok {item : Reader ε α} {n : Nat} {bs rest : Bytes} {as : List α} :
    many item (n + 1) bs = .ok (as, rest) ↔
      ∃ a mid tail, item bs = .ok (a, mid) ∧ many item n mid = .ok (tail, rest) ∧
        a :: tail = as := by
  rw [many_succ]
  cases item bs with
  | error e => simp
  | ok p =>
    obtain ⟨a, mid⟩ := p
    simp only [Except.ok.injEq, Prod.mk.injEq]
    cases hm : many item n mid with
    | error e =>
      -- the first item is read, but not all those behind it
      simp only [Except.map, reduceCtorEq, false_iff]
      rintro ⟨_, _, tail, ⟨rfl, rfl⟩, h, -⟩
      rw [hm] at h
      simp at h
    | ok q =>
      obtain ⟨tail, left⟩ := q
      simp only [Except.map, Except.ok.injEq, Prod.mk.injEq]
      constructor
      · rintro ⟨rfl, rfl⟩
        exact ⟨a, mid, tail, ⟨rfl, rfl⟩, hm, rfl⟩
      · rintro ⟨_, _, tail', ⟨rfl, rfl⟩, h, rfl⟩
        rw [hm] at h
        simpa using h

/-- A counted list is undone where its items are. -/
theorem many_undoes {item : Reader ε α} {P : α → Prop} {w : α → Bytes} (h : item.Undoes P w)
    (n : Nat) :
    (many item n).Undoes (fun as => as.length = n ∧ ∀ a ∈ as, P a) (List.flatMap w) := by
  induction n with
  | zero =>
    intro bs as rest
    rw [many_zero]
    cases as <;> simp
  | succ n ih =>
    intro bs as rest
    simp only [many_succ_eq_ok, h _ _ _, ih _ _ _]
    constructor
    · rintro ⟨a, _, tail, ⟨ha, rfl⟩, ⟨⟨hlen, hP⟩, rfl⟩, rfl⟩
      refine ⟨⟨by simp [hlen], ?_⟩, by simp⟩
      simpa using ⟨ha, hP⟩
    · rintro ⟨⟨hlen, hP⟩, rfl⟩
      cases as with
      | nil => simp at hlen
      | cons a tail =>
        simp only [List.mem_cons, forall_eq_or_imp] at hP
        exact ⟨a, _, tail, ⟨hP.1, by simp⟩, ⟨⟨by simpa using hlen, hP.2⟩, rfl⟩, rfl⟩

end Reader

end Defuse
