import Defuse.Proofs.PoolFormat
import Defuse.Proofs.TextRoundTrip

namespace Defuse

/-!
# How a constant pool grows

Computations that add constants only ever append, and what they found or appended once they
find again in every later pool.  What they were refused once they are refused again.

* `ConstantPool.Grown p q` — what adding constants to `p` can make of it;
* `Stable` — a computation that only lets pools grow, and that yields the same again, without
  a change, in every pool grown from the one it left, and fails again in the one it left;
* `Stable.bind`, `Stable.intern`, … — all computations that add constants are stable;
* `ConstantPool.Request` — all that a pool can be asked for, `Stable` by `Request.stable`;
* `ConstantPool.part_of_intern`, `ConstantPool.parts_of_intern` — a constant that refers to others
  is found with them;
* `ConstantPool.at?_intern` … `ConstantPool.at?_methodRef` — what a yielded number designates;
* `FitsIn` — a computation that fails only for want of room, and the room that it takes;
* `FitsIn.utf8` … `FitsIn.methodRef` — the room that constants take.
-/

/-! ### Growing -/

namespace ConstantPool

/-- What adding constants can make of a pool. -/
structure Grown (p q : ConstantPool) : Prop where
  appended : ∃ added, q.slots = p.slots ++ added
  laidOut : p.IsLaidOut → q.IsLaidOut
  room : q = p ∨ q.IsCounted ∧ q.slots.length ≤ maxIndex

namespace Grown

variable {p q r : ConstantPool}

theorem refl (p : ConstantPool) : Grown p p := ⟨⟨[], by simp⟩, id, .inl rfl⟩

/-- What has grown twice has grown. -/
theorem trans (h : Grown p q) (k : Grown q r) : Grown p r where
  appended := by
    obtain ⟨s, hs⟩ := h.appended
    obtain ⟨t, ht⟩ := k.appended
    exact ⟨s ++ t, by rw [ht, hs, List.append_assoc]⟩
  laidOut := k.laidOut ∘ h.laidOut
  -- the last of the two that adds anything keeps the limit
  room := by
    rcases k.room with rfl | hr
    · exact h.room
    · exact .inr hr

/-- No pool grows beyond the room of the format, though one may have been beyond it. -/
theorem length_le (h : Grown p q) (hp : p.slots.length ≤ 65535) : q.slots.length ≤ 65535 := by
  rcases h.room with rfl | ⟨-, hq⟩
  · exact hp
  · simp only [maxIndex] at hq
    omega

/-- A number designates what it did. -/
theorem at?_eq_some (h : Grown p q) {i : UInt16} {c : Constant} (hc : p.at? i = some c) :
    q.at? i = some c := by
  obtain ⟨added, hadded⟩ := h.appended
  unfold ConstantPool.at? at hc ⊢
  split at hc
  · simp at hc
  · next hi =>
    obtain ⟨hlt, -⟩ := List.getElem?_eq_some_iff.mp hc
    rw [if_neg hi, hadded, List.getElem?_append_left hlt, hc]

/-- A number inside the pool designates what it did. -/
theorem at?_eq (h : Grown p q) {i : UInt16} (hi : i.toNat ≤ p.slots.length) :
    q.at? i = p.at? i := by
  obtain ⟨added, hadded⟩ := h.appended
  unfold ConstantPool.at?
  by_cases h0 : i = 0
  · rw [if_pos h0, if_pos h0]
  · have : i.toNat ≠ 0 := fun h => h0 (UInt16.toNat.inj (by simpa using h))
    rw [if_neg h0, if_neg h0, hadded, List.getElem?_append_left (by omega)]

/-- A text stays what it is in a larger pool. -/
theorem text?_eq_some (h : Grown p q) {i : UInt16} {text : String} (ht : p.text? i = some text) :
    q.text? i = some text := by
  obtain ⟨bytes, hbytes, htext⟩ := Option.map_eq_some_iff.mp ht
  rw [bytes?] at hbytes
  split at hbytes
  · next hat =>
    rw [text?, bytes?, h.at?_eq_some hat, ← htext]
    cases hbytes
    rfl
  · cases hbytes

/-- Inside the smaller pool, a number stands for the same text, or for none in both. -/
theorem text?_eq (h : Grown p q) {i : UInt16} (hi : i.toNat ≤ p.slots.length) :
    q.text? i = p.text? i := by
  simp only [text?, bytes?, h.at?_eq hi]

/-- The first number of a constant stays the first. -/
theorem find?_eq_some (h : Grown p q) {i : UInt16} {c : Constant} (hc : p.find? c = some i) :
    q.find? c = some i := by
  obtain ⟨added, hadded⟩ := h.appended
  simp only [find?, Option.map_eq_some_iff] at hc ⊢
  obtain ⟨k, hk, rfl⟩ := hc
  refine ⟨k, ?_, rfl⟩
  rw [hadded, List.findIdx?_append, hk]
  rfl

end Grown

/-- What is found is there. -/
theorem mem_of_find? {p : ConstantPool} {c : Constant} {i : UInt16} (h : p.find? c = some i) :
    c ∈ p.slots := by
  simp only [find?, Option.map_eq_some_iff] at h
  obtain ⟨k, hk, -⟩ := h
  obtain ⟨hlt, heq, -⟩ := List.findIdx?_eq_some_iff_getElem.mp hk
  rw [← (decide_eq_true_eq.mp heq : p.slots[k] = c)]
  exact List.getElem_mem hlt

/-- The number of a constant designates it. -/
theorem at?_of_find? {p : ConstantPool} {c : Constant} {i : UInt16}
    (hp : p.slots.length ≤ 65535) (h : p.find? c = some i) : p.at? i = some c := by
  simp only [find?, Option.map_eq_some_iff] at h
  obtain ⟨k, hk, rfl⟩ := h
  obtain ⟨hlt, heq, -⟩ := List.findIdx?_eq_some_iff_getElem.mp hk
  have hnat : (k + 1).toUInt16.toNat = k + 1 := Bytes.toNat_toUInt16_eq_iff.mpr (by omega)
  have hne : (k + 1).toUInt16 ≠ 0 := by
    intro h0
    rw [h0] at hnat
    simp at hnat
  rw [ConstantPool.at?, if_neg hne, hnat, Nat.add_sub_cancel, List.getElem?_eq_getElem hlt]
  simpa using heq

/-- An appended constant is one more entry, whether it takes one slot or two. -/
theorem entries_append (size : UInt16) (p : ConstantPool) {c : Constant} (hc : c ≠ .unusable) :
    entries ⟨size, p.slots ++ c.slots⟩ = p.entries ++ [c] := by
  have hslots : c.slots.filter (· ≠ .unusable) = [c] := by
    have hone : ∀ d ∈ [c], d ≠ .unusable := by simpa using hc
    simpa using filter_flatMap_slots hone
  rw [entries, List.filter_append, hslots]
  rfl

end ConstantPool

open ConstantPool

/-! ### Computations that add constants -/

variable {ε δ α β : Type}

/-- What a computation yields, and the pool it leaves. -/
def outcome (e : ExceptT ε (StateM ConstantPool) α) (p : ConstantPool) :
    Except ε α × ConstantPool :=
  e.run.run p

@[simp] theorem outcome_pure (a : α) (p : ConstantPool) :
    outcome (pure a : ExceptT ε (StateM ConstantPool) α) p = (.ok a, p) :=
  rfl

/-- A result that is known already changes nothing in the pool. -/
@[simp] theorem outcome_liftM (r : Except ε α) (p : ConstantPool) :
    outcome (liftM r : ExceptT ε (StateM ConstantPool) α) p = (r, p) := by
  cases r <;> rfl

@[simp] theorem outcome_get (p : ConstantPool) :
    outcome (get : ExceptT ε (StateM ConstantPool) ConstantPool) p = (.ok p, p) :=
  rfl

/-- The second computation runs on the pool that the first one leaves, if that one succeeds. -/
theorem outcome_bind (e : ExceptT ε (StateM ConstantPool) α)
    (f : α → ExceptT ε (StateM ConstantPool) β) (p : ConstantPool) :
    outcome (e >>= f) p = match outcome e p with
      | (.ok a, q) => outcome (f a) q
      | (.error x, q) => (.error x, q) := by
  show (match (e p : Except ε α × ConstantPool) with
    | (r, q) => (ExceptT.bindCont f r : StateM ConstantPool (Except ε β)) q) =
    match (e p : Except ε α × ConstantPool) with
    | (.ok a, q) => f a q
    | (.error x, q) => (.error x, q)
  rcases (e p : Except ε α × ConstantPool) with ⟨_ | _, q⟩ <;> rfl

/-- Another error is reported, and the pool is the same. -/
theorem outcome_adapt (e : ExceptT ε (StateM ConstantPool) α) (f : ε → δ) (p : ConstantPool) :
    outcome (ExceptT.adapt f e) p = ((outcome e p).1.mapError f, (outcome e p).2) :=
  rfl

/-- Changing errors does not change what is no error. -/
theorem mapError_ok (f : ε → δ) (a : α) : (Except.ok a : Except ε α).mapError f = .ok a := rfl

/-- With another error to report, a computation succeeds as it did. -/
theorem outcome_adapt_eq_ok {e : ExceptT ε (StateM ConstantPool) α} {f : ε → δ}
    {p q : ConstantPool} {a : α} :
    outcome (ExceptT.adapt f e) p = (.ok a, q) ↔ outcome e p = (.ok a, q) := by
  rw [outcome_adapt]
  rcases outcome e p with ⟨x | b, mid⟩
  · constructor <;>
    · intro h
      cases h
  · constructor <;>
    · intro h
      cases h
      rfl

/-- Two computations one after the other. -/
theorem outcome_bind_eq_ok {e : ExceptT ε (StateM ConstantPool) α}
    {f : α → ExceptT ε (StateM ConstantPool) β} {p q : ConstantPool} {b : β} :
    outcome (e >>= f) p = (.ok b, q) ↔
      ∃ a mid, outcome e p = (.ok a, mid) ∧ outcome (f a) mid = (.ok b, q) := by
  rw [outcome_bind]
  rcases outcome e p with ⟨x | a, mid⟩
  · simp
  · constructor
    · intro h
      exact ⟨a, mid, rfl, h⟩
    · rintro ⟨_, _, ha, h⟩
      cases ha
      exact h

/-- Two computations one after the other fail where one of them does. -/
theorem outcome_bind_eq_error {e : ExceptT ε (StateM ConstantPool) α}
    {f : α → ExceptT ε (StateM ConstantPool) β} {p q : ConstantPool} {x : ε} :
    outcome (e >>= f) p = (.error x, q) ↔ outcome e p = (.error x, q) ∨
      ∃ a mid, outcome e p = (.ok a, mid) ∧ outcome (f a) mid = (.error x, q) := by
  rw [outcome_bind]
  rcases outcome e p with ⟨y | a, mid⟩
  · simp
  · constructor
    · intro h
      exact .inr ⟨a, mid, rfl, h⟩
    · rintro (h | ⟨_, _, ha, h⟩)
      · cases h
      · cases ha
        exact h

/-- A computation only lets pools grow, and what it yielded it yields again, without a change,
in every pool grown from the one it left.  Where it failed, it has the same reason to fail in the
pool it left, though not in later ones. -/
structure Stable (e : ExceptT ε (StateM ConstantPool) α) : Prop where
  grows : ∀ p, Grown p (outcome e p).2
  again : ∀ {p q r a}, outcome e p = (.ok a, q) → Grown q r → outcome e r = (.ok a, r)
  refused : ∀ {p q x}, outcome e p = (.error x, q) → outcome e q = (.error x, q)

namespace Stable

/-- The pool that a computation leaves has grown. -/
theorem grown {e : ExceptT ε (StateM ConstantPool) α} (h : Stable e) {p q : ConstantPool}
    {r : Except ε α} (hrun : outcome e p = (r, q)) : Grown p q := by
  have := h.grows p
  rwa [hrun] at this

/-- In the pool that it left, a computation comes to the same once more. -/
theorem settled {e : ExceptT ε (StateM ConstantPool) α} (h : Stable e) {p q : ConstantPool}
    {r : Except ε α} (hrun : outcome e p = (r, q)) : outcome e q = (r, q) := by
  cases r with
  | error x => exact h.refused hrun
  | ok a => exact h.again hrun (.refl q)

/-- A computation that only returns is stable. -/
theorem pure (a : α) : Stable (pure a : ExceptT ε (StateM ConstantPool) α) where
  grows p := .refl p
  again h _ := by
    cases h
    rfl
  refused h := by cases h

theorem throw (x : ε) : Stable (throw x : ExceptT ε (StateM ConstantPool) α) where
  grows p := .refl p
  again h _ := by cases h
  refused h := by
    cases h
    rfl

/-- A computation that does not look at the pool. -/
theorem liftM (r : Except ε α) : Stable (liftM r : ExceptT ε (StateM ConstantPool) α) := by
  cases r with
  | error x => exact throw x
  | ok a => exact pure a

/-- Two stable computations, one behind the other, are stable. -/
theorem bind {e : ExceptT ε (StateM ConstantPool) α}
    {f : α → ExceptT ε (StateM ConstantPool) β} (he : Stable e) (hf : ∀ a, Stable (f a)) :
    Stable (e >>= f) where
  grows p := by
    rw [outcome_bind]
    split
    · next a mid hrun => exact (he.grown hrun).trans ((hf a).grows mid)
    · next hrun => exact he.grown hrun
  again {p q r b} h hr := by
    obtain ⟨a, mid, hmid, hq⟩ := outcome_bind_eq_ok.mp h
    -- the later pool has grown from the one between the two as well
    have hgrown : Grown mid r := ((hf a).grown hq).trans hr
    exact outcome_bind_eq_ok.mpr ⟨a, r, he.again hmid hgrown, (hf a).again hq hr⟩
  refused {p q x} h := by
    apply outcome_bind_eq_error.mpr
    rcases outcome_bind_eq_error.mp h with h | ⟨a, mid, ha, h⟩
    · exact .inl (he.refused h)
    · exact .inr ⟨a, q, he.again ha ((hf a).grown h), (hf a).refused h⟩

/-- With another error to report, a stable computation stays so. -/
theorem adapt {e : ExceptT ε (StateM ConstantPool) α} (f : ε → δ) (he : Stable e) :
    Stable (ExceptT.adapt f e) where
  grows p := he.grows p
  again {p q r a} h hr := by
    rw [outcome_adapt_eq_ok] at h ⊢
    exact he.again h hr
  refused {p q y} h := by
    -- what is refused again is refused for the cause that the error is made of
    rw [outcome_adapt, Prod.mk.injEq] at h
    obtain ⟨hcause, rfl⟩ := h
    have hagain : outcome e (outcome e p).2 = outcome e p := he.settled rfl
    rw [outcome_adapt, hagain, hcause]

end Stable

/-! ### Adding one constant -/

namespace ConstantPool

/-- A constant is appended if there is room for its slots; its number is the next one. -/
theorem outcome_push (c : Constant) (p : ConstantPool) :
    outcome (push c) p =
      if maxIndex < p.slots.length + c.slots.length then (.error .full, p)
      else (.ok (p.slots.length + 1).toUInt16,
        ⟨((p.slots ++ c.slots).length + 1).toUInt16, p.slots ++ c.slots⟩) :=
  rfl

/-- A constant that is there is answered with its number; any other is appended. -/
theorem outcome_intern (c : Constant) (p : ConstantPool) :
    outcome (intern c) p =
      match p.find? c with
      | some index => (.ok index, p)
      | none => outcome (push c) p :=
  rfl

/-- Appending a constant lets the pool grow. -/
theorem push_grown {c : Constant} (hc : c ≠ .unusable) (p : ConstantPool) :
    Grown p (outcome (push c) p).2 := by
  rw [outcome_push]
  split
  · exact .refl p
  · next hroom =>
    simp only [maxIndex, Nat.not_lt] at hroom
    refine ⟨⟨c.slots, rfl⟩, fun h => ?_, .inr ⟨?_, ?_⟩⟩
    · show p.slots ++ c.slots = _
      rw [entries_append _ _ hc, List.flatMap_append, ← h]
      simp
    · refine Bytes.toNat_toUInt16_eq_iff.mpr ?_
      rw [List.length_append]
      omega
    · simpa [maxIndex] using hroom

/-- An appended constant has the number that was yielded. -/
theorem find?_push {c : Constant} {p q : ConstantPool} {i : UInt16} (hnew : p.find? c = none)
    (h : outcome (push c) p = (.ok i, q)) : q.find? c = some i := by
  rw [outcome_push] at h
  split at h
  · cases h
  · cases h
    -- the constant is the first of the slots that are appended, and none of those before
    have hfirst : c.slots.findIdx? (· = c) = some 0 := by
      unfold Constant.slots
      split <;> simp [List.findIdx?_cons]
    simp only [find?, Option.map_eq_none_iff] at hnew
    simp [find?, List.findIdx?_append, hnew, hfirst]

/-- The yielded number is the first one of the constant in the pool that was left. -/
theorem find?_intern {c : Constant} {p q : ConstantPool} {i : UInt16}
    (h : outcome (intern c) p = (.ok i, q)) : q.find? c = some i := by
  rw [outcome_intern] at h
  split at h
  · next hfound =>
    cases h
    exact hfound
  · next hnew => exact find?_push hnew h

end ConstantPool

/-- Adding a constant is stable: once it is there, it is found. -/
theorem Stable.intern {c : Constant} (hc : c ≠ .unusable) : Stable (ConstantPool.intern c) where
  grows p := by
    rw [outcome_intern]
    split
    · exact .refl p
    · exact push_grown hc p
  again {p q r i} h hr := by
    rw [outcome_intern, hr.find?_eq_some (find?_intern h)]
  refused {p q x} h := by
    -- an addition that fails leaves the pool as it was
    have hsame : q = p := by
      rw [outcome_intern, outcome_push] at h
      split at h
      · cases h
      · split at h
        · cases h
          rfl
        · cases h
    rwa [hsame] at h ⊢

namespace ConstantPool

/-- The yielded number designates the constant. -/
theorem at?_intern {c : Constant} {p q : ConstantPool} {i : UInt16}
    (h : outcome (intern c) p = (.ok i, q)) (hq : q.slots.length ≤ 65535) : q.at? i = some c :=
  at?_of_find? hq (find?_intern h)

end ConstantPool

/-! ### Adding what constants stand for -/

namespace Stable

/-- Adding a text is stable. -/
theorem utf8 (text : String) : Stable (ConstantPool.utf8 text) := intern (by simp)

theorem className (name : String) : Stable (ConstantPool.className name) :=
  (utf8 name).bind fun _ => intern (by simp)

theorem string (text : String) : Stable (ConstantPool.string text) :=
  (utf8 text).bind fun _ => intern (by simp)

theorem nameAndType (name descriptor : String) :
    Stable (ConstantPool.nameAndType name descriptor) :=
  (utf8 name).bind fun _ => (utf8 descriptor).bind fun _ => intern (by simp)

theorem methodRef (owner name descriptor : String) :
    Stable (ConstantPool.methodRef owner name descriptor) :=
  (className owner).bind fun _ => (nameAndType name descriptor).bind fun _ => intern (by simp)

end Stable

namespace ConstantPool

/-- Something that a pool can be asked for. -/
inductive Request where
  | utf8 (text : String)
  | className (name : String)
  | string (text : String)
  | integer (value : Int32)
  | long (value : Int64)
  | float (bits : UInt32)
  | double (bits : UInt64)
  | nameAndType (name descriptor : String)
  | methodRef (owner name descriptor : String)
deriving DecidableEq, Repr

/-- How a pool answers. -/
def Request.edit : Request → Edit UInt16
  | .utf8 text => ConstantPool.utf8 text
  | .className name => ConstantPool.className name
  | .string text => ConstantPool.string text
  | .integer value => ConstantPool.integer value
  | .long value => ConstantPool.long value
  | .float bits => ConstantPool.float bits
  | .double bits => ConstantPool.double bits
  | .nameAndType name descriptor => ConstantPool.nameAndType name descriptor
  | .methodRef owner name descriptor => ConstantPool.methodRef owner name descriptor

/-- Whatever is asked for, and whether or not there is room for it, a pool only grows. -/
theorem Request.stable (wanted : Request) : Stable wanted.edit := by
  cases wanted with
  | utf8 text => exact .utf8 text
  | className name => exact .className name
  | string text => exact .string text
  | integer value => exact .intern (by simp)
  | long value => exact .intern (by simp)
  | float bits => exact .intern (by simp)
  | double bits => exact .intern (by simp)
  | nameAndType name descriptor => exact .nameAndType name descriptor
  | methodRef owner name descriptor => exact .methodRef owner name descriptor

end ConstantPool

namespace ConstantPool

variable {p q : ConstantPool} {i : UInt16}

/-! ### What a number designates -/

/-- A constant with one part: the pool that is left has both. -/
theorem part_of_intern {e : Edit UInt16} {make : UInt16 → Constant} (he : Stable e)
    (hmake : ∀ a, make a ≠ .unusable)
    (h : outcome (e >>= fun a => intern (make a)) p = (.ok i, q)) :
    ∃ a, outcome e q = (.ok a, q) ∧ outcome (intern (make a)) q = (.ok i, q) := by
  obtain ⟨a, mid, ha, hi⟩ := outcome_bind_eq_ok.mp h
  have hstable : Stable (intern (make a)) := .intern (hmake a)
  exact ⟨a, he.again ha (hstable.grown hi), hstable.again hi (.refl q)⟩

/-- A constant with two parts: the pool that is left has all three. -/
theorem parts_of_intern {e f : Edit UInt16} {make : UInt16 → UInt16 → Constant} (he : Stable e)
    (hf : Stable f) (hmake : ∀ a b, make a b ≠ .unusable)
    (h : outcome (e >>= fun a => f >>= fun b => intern (make a b)) p = (.ok i, q)) :
    ∃ a b, outcome e q = (.ok a, q) ∧ outcome f q = (.ok b, q) ∧
      outcome (intern (make a b)) q = (.ok i, q) := by
  obtain ⟨a, mid, ha, h⟩ := outcome_bind_eq_ok.mp h
  obtain ⟨b, hb, hi⟩ := part_of_intern hf (hmake a) h
  have hgrown : Grown mid q := (hf.bind fun b => .intern (hmake a b)).grown h
  exact ⟨a, b, he.again ha hgrown, hb, hi⟩

/-- A stored text is read as it was. -/
theorem text?_of_at? {text : String} (h : p.at? i = some (.utf8 (Text.ModifiedUtf8.encode text))) :
    p.text? i = some text := by
  rw [text?, bytes?, h]
  exact congrArg some (Text.ModifiedUtf8.decode_encode text)

/-- The number of a text designates it. -/
theorem text?_utf8 {text : String} (h : outcome (utf8 text) p = (.ok i, q))
    (hq : q.slots.length ≤ 65535) : q.text? i = some text :=
  text?_of_at? (at?_intern h hq)

/-- A text that is found has the number of the place where it is found. -/
theorem utf8_of_find? {text : String}
    (h : p.find? (.utf8 (Text.ModifiedUtf8.encode text)) = some i) :
    outcome (utf8 text) p = (.ok i, p) := by
  rw [utf8, outcome_intern, h]

/-- The number of a class designates its name. -/
theorem at?_className {name : String} (h : outcome (className name) p = (.ok i, q))
    (hq : q.slots.length ≤ 65535) :
    ∃ n, q.at? i = some (.className n) ∧ q.text? n = some name := by
  obtain ⟨n, hn, hi⟩ := part_of_intern (.utf8 name) (by simp) h
  exact ⟨n, at?_intern hi hq, text?_utf8 hn hq⟩

/-- The number of a string designates its text. -/
theorem at?_string {text : String} (h : outcome (string text) p = (.ok i, q))
    (hq : q.slots.length ≤ 65535) :
    ∃ n, q.at? i = some (.string n) ∧ q.text? n = some text := by
  obtain ⟨n, hn, hi⟩ := part_of_intern (.utf8 text) (by simp) h
  exact ⟨n, at?_intern hi hq, text?_utf8 hn hq⟩

/-- The number of a name and type leads to the numbers of both texts. -/
theorem at?_nameAndType {name descriptor : String}
    (h : outcome (nameAndType name descriptor) p = (.ok i, q)) (hq : q.slots.length ≤ 65535) :
    ∃ n d, q.at? i = some (.nameAndType n d) ∧ q.text? n = some name ∧
      q.text? d = some descriptor := by
  obtain ⟨n, d, hn, hd, hi⟩ := parts_of_intern (.utf8 name) (.utf8 descriptor) (by simp) h
  exact ⟨n, d, at?_intern hi hq, text?_utf8 hn hq, text?_utf8 hd hq⟩

/-- The number of a method designates its name and its descriptor, and its class by the number
that the class itself has. -/
theorem at?_methodRef {owner name descriptor : String}
    (h : outcome (methodRef owner name descriptor) p = (.ok i, q))
    (hq : q.slots.length ≤ 65535) :
    ∃ k nt n d, outcome (className owner) q = (.ok k, q) ∧
      q.at? i = some (.methodRef k nt) ∧ q.at? nt = some (.nameAndType n d) ∧
      q.text? n = some name ∧ q.text? d = some descriptor := by
  obtain ⟨k, nt, hk, hnt, hi⟩ :=
    parts_of_intern (.className owner) (.nameAndType name descriptor) (by simp) h
  obtain ⟨n, d, hat, hname, hdescriptor⟩ := at?_nameAndType hnt hq
  exact ⟨k, nt, n, d, hk, at?_intern hi hq, hat, hname, hdescriptor⟩

end ConstantPool

/-! ### Room -/

/-- Where there is room for `n` further slots a computation does not fail, and it takes no more
of them. -/
def FitsIn (e : ExceptT ε (StateM ConstantPool) α) (n : Nat) : Prop :=
  ∀ p : ConstantPool, p.slots.length + n ≤ maxIndex →
    ∃ a q, outcome e p = (.ok a, q) ∧ q.slots.length ≤ p.slots.length + n

namespace FitsIn

/-- Nothing is needed for what adds nothing. -/
theorem pure (a : α) : FitsIn (pure a : ExceptT ε (StateM ConstantPool) α) 0 :=
  fun p _ => ⟨a, p, rfl, Nat.le_refl _⟩

/-- Two computations need the room of both. -/
theorem bind {e : ExceptT ε (StateM ConstantPool) α}
    {f : α → ExceptT ε (StateM ConstantPool) β} {m n : Nat} (he : FitsIn e m)
    (hf : ∀ a, FitsIn (f a) n) : FitsIn (e >>= f) (m + n) := by
  intro p hroom
  obtain ⟨a, mid, ha, hmid⟩ := he p (by omega)
  obtain ⟨b, q, hb, hq⟩ := hf a mid (by omega)
  exact ⟨b, q, outcome_bind_eq_ok.mpr ⟨a, mid, ha, hb⟩, by omega⟩

/-- With another error to report, a computation needs the same room. -/
theorem adapt {e : ExceptT ε (StateM ConstantPool) α} {n : Nat} (f : ε → δ) (he : FitsIn e n) :
    FitsIn (ExceptT.adapt f e) n := by
  intro p hroom
  obtain ⟨a, q, ha, hq⟩ := he p hroom
  exact ⟨a, q, outcome_adapt_eq_ok.mpr ha, hq⟩

/-- A constant takes no more slots than its own. -/
theorem intern (c : Constant) : FitsIn (ConstantPool.intern c) c.slots.length := by
  intro p hroom
  rw [outcome_intern]
  cases p.find? c with
  | some i => exact ⟨i, p, rfl, Nat.le_add_right ..⟩
  | none =>
    refine ⟨_, _, by rw [outcome_push, if_neg (Nat.not_lt.mpr hroom)], ?_⟩
    exact Nat.le_of_eq List.length_append

/-- A text needs one slot. -/
theorem utf8 (text : String) : FitsIn (ConstantPool.utf8 text) 1 := intern _

/-- A class needs one slot for itself and one for its name. -/
theorem className (name : String) : FitsIn (ConstantPool.className name) 2 :=
  (utf8 name).bind fun n => intern (.className n)

/-- A string needs one slot for itself and one for its text. -/
theorem string (text : String) : FitsIn (ConstantPool.string text) 2 :=
  (utf8 text).bind fun n => intern (.string n)

/-- A name and type needs one slot for itself and one for each text. -/
theorem nameAndType (name descriptor : String) :
    FitsIn (ConstantPool.nameAndType name descriptor) 3 :=
  (utf8 name).bind fun n => (utf8 descriptor).bind fun d => intern (.nameAndType n d)

/-- A method reference needs one slot for itself, two for the class and three for the name and
type. -/
theorem methodRef (owner name descriptor : String) :
    FitsIn (ConstantPool.methodRef owner name descriptor) 6 :=
  (className owner).bind fun k =>
    (nameAndType name descriptor).bind fun nt => intern (.methodRef k nt)

end FitsIn

end Defuse
