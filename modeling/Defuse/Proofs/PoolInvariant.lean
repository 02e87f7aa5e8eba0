import Defuse.Proofs.Building
import Defuse.Proofs.Interning

namespace Defuse

open ConstantPool

/-!
# What holds of a pool however long it is asked

* `ConstantPool.IsPaired` — wide constants and unusable slots stand in pairs; every pool that is
  laid out is of this kind (`ConstantPool.IsLaidOut.isPaired`);
* `ConstantPool.Needs` — the constants that a request needs in a pool;
* `ConstantPool.Call.answer_eq_error_iff` — a request is refused exactly where one of them is
  missing and there is no room for it;
* `pool_invariant` — the pools of a class that was created or read, for all lists of requests.
-/

namespace ConstantPool

variable {p q : ConstantPool}

/-! ### Wide constants -/

/-- Every wide constant has an unusable slot behind it, and there are no other unusable slots. -/
structure IsPaired (slots : List Constant) : Prop where
  wide : ∀ {k c}, slots[k]? = some c → c.isWide = true → slots[k + 1]? = some .unusable
  unusable : ∀ {k}, slots[k]? = some .unusable →
    ∃ j c, k = j + 1 ∧ slots[j]? = some c ∧ c.isWide = true

/-- A constant of one slot in front of others. -/
theorem IsPaired.narrow {c : Constant} {slots : List Constant} (hc : c ≠ .unusable)
    (hnarrow : c.isWide = false) (h : IsPaired slots) : IsPaired (c :: slots) where
  wide {k d} hd hdwide := by
    cases k with
    | zero =>
      cases hd
      simp [hnarrow] at hdwide
    | succ k => exact h.wide hd hdwide
  unusable {k} hk := by
    cases k with
    | zero => exact absurd (Option.some.inj hk) hc
    | succ k =>
      obtain ⟨j, d, rfl, hd, hdwide⟩ := h.unusable hk
      exact ⟨j + 1, d, rfl, hd, hdwide⟩

/-- A constant of two slots in front of others. -/
theorem IsPaired.paired {c : Constant} {slots : List Constant} (hc : c ≠ .unusable)
    (hwide : c.isWide = true) (h : IsPaired slots) : IsPaired (c :: .unusable :: slots) where
  wide {k d} hd hdwide := by
    -- the two slots of the constant come first, then those that were paired before
    cases k with
    | zero => rfl
    | succ k =>
      cases k with
      | zero =>
        cases hd
        cases hdwide
      | succ k => exact h.wide hd hdwide
  unusable {k} hk := by
    cases k with
    | zero => exact absurd (Option.some.inj hk) hc
    | succ k =>
      cases k with
      | zero => exact ⟨0, c, rfl, rfl, hwide⟩
      | succ k =>
        obtain ⟨j, d, rfl, hd, hdwide⟩ := h.unusable hk
        exact ⟨j + 2, d, rfl, hd, hdwide⟩

/-- A constant with its slots in front of others. -/
theorem IsPaired.cons {c : Constant} {slots : List Constant} (hc : c ≠ .unusable)
    (h : IsPaired slots) : IsPaired (c.slots ++ slots) := by
  cases hwide : c.isWide with
  | true => simpa [Constant.slots, hwide] using h.paired hc hwide
  | false => simpa [Constant.slots, hwide] using h.narrow hc hwide

/-- Slots that are laid out from constants are paired. -/
theorem isPaired_flatMap {cs : List Constant} (h : ∀ c ∈ cs, c ≠ .unusable) :
    IsPaired (cs.flatMap Constant.slots) := by
  induction cs with
  | nil =>
    constructor
    · intro k c hc
      cases hc
    · intro k hk
      cases hk
  | cons c cs ih =>
    obtain ⟨hc, hcs⟩ := List.forall_mem_cons.mp h
    exact .cons hc (ih hcs)

/-- In a pool that is laid out, wide constants and unusable slots come in pairs. -/
theorem IsLaidOut.isPaired (h : p.IsLaidOut) : IsPaired p.slots := by
  rw [h]
  exact isPaired_flatMap fun c hc => ne_unusable_of_mem_entries hc

/-! ### What a request needs -/

/-- The pool has what is wanted, under a number. -/
def Has (p : ConstantPool) (wanted : Request) (i : UInt16) : Prop :=
  outcome wanted.edit p = (.ok i, p)

/-- What is asked for first. -/
def Request.parts : Request → List Request
  | .className name => [.utf8 name]
  | .string text => [.utf8 text]
  | .nameAndType name descriptor => [.utf8 name, .utf8 descriptor]
  | .methodRef owner name descriptor => [.className owner, .nameAndType name descriptor]
  | _ => []

/-- A request needs a constant of its own, which refers to its parts by the numbers that these
have, and all that its parts need. -/
inductive Needs (p : ConstantPool) : Request → Constant → Prop where
  | utf8 {text} : Needs p (.utf8 text) (.utf8 (Text.ModifiedUtf8.encode text))
  | integer {value} : Needs p (.integer value) (.integer value)
  | long {value} : Needs p (.long value) (.long value)
  | float {bits} : Needs p (.float bits) (.float bits)
  | double {bits} : Needs p (.double bits) (.double bits)
  | className {name n} (hn : p.Has (.utf8 name) n) : Needs p (.className name) (.className n)
  | string {text n} (hn : p.Has (.utf8 text) n) : Needs p (.string text) (.string n)
  | nameAndType {name descriptor n d} (hn : p.Has (.utf8 name) n)
      (hd : p.Has (.utf8 descriptor) d) :
      Needs p (.nameAndType name descriptor) (.nameAndType n d)
  | methodRef {owner name descriptor k nt} (hk : p.Has (.className owner) k)
      (hnt : p.Has (.nameAndType name descriptor) nt) :
      Needs p (.methodRef owner name descriptor) (.methodRef k nt)
  | part {wanted part c} (hpart : part ∈ wanted.parts) (hc : Needs p part c) : Needs p wanted c

/-- A pool does not have a constant, nor room for it. -/
structure Lacks (p : ConstantPool) (c : Constant) : Prop where
  absent : c ∉ p.slots
  room : maxIndex < p.slots.length + c.slots.length

/-- A constant is not found exactly where no slot holds it. -/
theorem find?_eq_none_iff {c : Constant} : p.find? c = none ↔ c ∉ p.slots := by
  rw [find?, Option.map_eq_none_iff, List.findIdx?_eq_none_iff]
  constructor
  · intro h hc
    simpa using h c hc
  · intro h d hd
    exact decide_eq_false fun heq => h (heq ▸ hd)

/-- A constant is refused where it is missing and has no room. -/
theorem intern_eq_error {c : Constant} {x : PoolFull}
    (h : outcome (intern c) p = (.error x, q)) : q = p ∧ p.Lacks c := by
  rw [outcome_intern] at h
  split at h
  · cases h
  · next hnew =>
    rw [outcome_push] at h
    split at h
    · next hroom =>
      cases h
      exact ⟨rfl, find?_eq_none_iff.mp hnew, hroom⟩
    · cases h

/-- A constant with one part is refused where the part is, or where it is itself. -/
theorem part_refused {e : Edit UInt16} {make : UInt16 → Constant} {x : PoolFull} (he : Stable e)
    (h : outcome (e >>= fun a => intern (make a)) p = (.error x, q)) :
    outcome e p = (.error x, q) ∨ ∃ a, outcome e q = (.ok a, q) ∧ q.Lacks (make a) := by
  rcases outcome_bind_eq_error.mp h with h | ⟨a, mid, ha, h⟩
  · exact .inl h
  · obtain ⟨rfl, hlacks⟩ := intern_eq_error h
    exact .inr ⟨a, he.again ha (.refl q), hlacks⟩

/-- A constant with two parts is refused where one of these is, or where it is itself. -/
theorem parts_refused {e f : Edit UInt16} {make : UInt16 → UInt16 → Constant} {x : PoolFull}
    (he : Stable e) (hf : Stable f) (hmake : ∀ a b, make a b ≠ .unusable)
    (h : outcome (e >>= fun a => f >>= fun b => intern (make a b)) p = (.error x, q)) :
    outcome e p = (.error x, q) ∨ (∃ mid, outcome f mid = (.error x, q)) ∨
      ∃ a b, outcome e q = (.ok a, q) ∧ outcome f q = (.ok b, q) ∧ q.Lacks (make a b) := by
  rcases outcome_bind_eq_error.mp h with h | ⟨a, mid, ha, h⟩
  · exact .inl h
  · have hgrown : Grown mid q := (hf.bind fun b => .intern (hmake a b)).grown h
    rcases part_refused hf h with h | ⟨b, hb, hlacks⟩
    · exact .inr (.inl ⟨mid, h⟩)
    · exact .inr (.inr ⟨a, b, he.again ha hgrown, hb, hlacks⟩)

/-- A request needs a constant that is missing, and for which there is no room. -/
def Refuses (p : ConstantPool) (wanted : Request) : Prop := ∃ c, p.Needs wanted c ∧ p.Lacks c

/-- Where a part of a request is refused, the request is. -/
theorem Refuses.of_part {part wanted : Request} (h : p.Refuses part) (hpart : part ∈ wanted.parts) :
    p.Refuses wanted := by
  obtain ⟨c, hneeds, hlacks⟩ := h
  exact ⟨c, .part hpart hneeds, hlacks⟩

variable {x : PoolFull} {wanted : Request} {i : UInt16}

/-- A text that could not be added is refused. -/
theorem utf8_refused {text : String} (h : outcome (utf8 text) p = (.error x, q)) :
    q.Refuses (.utf8 text) := by
  obtain ⟨rfl, hlacks⟩ := intern_eq_error h
  exact ⟨_, .utf8, hlacks⟩

/-- A class that could not be added is refused, for its name or for itself. -/
theorem className_refused {name : String} (h : outcome (className name) p = (.error x, q)) :
    q.Refuses (.className name) := by
  rcases part_refused (.utf8 name) h with h | ⟨n, hn, hlacks⟩
  · exact (utf8_refused h).of_part (.head _)
  · exact ⟨_, .className hn, hlacks⟩

/-- A name and type that could not be added is refused, for one of its texts or for itself. -/
theorem nameAndType_refused {name descriptor : String}
    (h : outcome (nameAndType name descriptor) p = (.error x, q)) :
    q.Refuses (.nameAndType name descriptor) := by
  rcases parts_refused (.utf8 name) (.utf8 descriptor) (by simp) h with
    h | ⟨mid, h⟩ | ⟨n, d, hn, hd, hlacks⟩
  · exact (utf8_refused h).of_part (.head _)
  · exact (utf8_refused h).of_part (.tail _ (.head _))
  · exact ⟨_, .nameAndType hn hd, hlacks⟩

/-- A request that fails is refused for something that it needs. -/
theorem refuses_of_error (h : outcome wanted.edit p = (.error x, q)) : q.Refuses wanted := by
  cases wanted with
  | utf8 text => exact utf8_refused h
  | className name => exact className_refused h
  | string text =>
    -- the text is refused, or the string itself
    rcases part_refused (.utf8 text) h with h | ⟨n, hn, hlacks⟩
    · exact (utf8_refused h).of_part (.head _)
    · exact ⟨_, .string hn, hlacks⟩
  | nameAndType name descriptor => exact nameAndType_refused h
  | methodRef owner name descriptor =>
    -- what the parts need is refused, or the method reference itself
    rcases parts_refused (.className owner) (.nameAndType name descriptor) (by simp) h with
      h | ⟨mid, h⟩ | ⟨k, nt, hk, hnt, hlacks⟩
    · exact (className_refused h).of_part (.head _)
    · exact (nameAndType_refused h).of_part (.tail _ (.head _))
    · exact ⟨_, .methodRef hk hnt, hlacks⟩
  | _ =>
    obtain ⟨rfl, hlacks⟩ := intern_eq_error h
    exact ⟨_, by constructor, hlacks⟩

/-- What has a number has numbers for its parts. -/
theorem Has.part {part : Request} (h : p.Has wanted i) (hpart : part ∈ wanted.parts) :
    ∃ j, p.Has part j := by
  cases wanted with
  | className name =>
    obtain ⟨n, hn, -⟩ := part_of_intern (.utf8 name) (by simp) h
    exact ⟨n, List.mem_singleton.mp hpart ▸ hn⟩
  | string text =>
    obtain ⟨n, hn, -⟩ := part_of_intern (.utf8 text) (by simp) h
    exact ⟨n, List.mem_singleton.mp hpart ▸ hn⟩
  | nameAndType name descriptor =>
    obtain ⟨n, d, hn, hd, -⟩ := parts_of_intern (.utf8 name) (.utf8 descriptor) (by simp) h
    simp only [Request.parts, List.mem_cons, List.not_mem_nil, or_false] at hpart
    rcases hpart with rfl | rfl
    · exact ⟨n, hn⟩
    · exact ⟨d, hd⟩
  | methodRef owner name descriptor =>
    obtain ⟨k, nt, hk, hnt, -⟩ :=
      parts_of_intern (.className owner) (.nameAndType name descriptor) (by simp) h
    simp only [Request.parts, List.mem_cons, List.not_mem_nil, or_false] at hpart
    rcases hpart with rfl | rfl
    · exact ⟨k, hk⟩
    · exact ⟨nt, hnt⟩
  | _ => cases hpart

/-- What has a number has all constants that it needs. -/
theorem Needs.mem_slots {c : Constant} (hc : p.Needs wanted c) (h : p.Has wanted i) :
    c ∈ p.slots := by
  -- by induction on why the constant is needed: as the request itself, or as one of its parts
  induction hc generalizing i with
  | utf8 | integer | long | float | double => exact mem_of_find? (find?_intern h)
  | className hn =>
    obtain ⟨n, hn', hi⟩ := part_of_intern (.utf8 _) (by simp) h
    cases hn'.symm.trans hn
    exact mem_of_find? (find?_intern hi)
  | string hn =>
    obtain ⟨n, hn', hi⟩ := part_of_intern (.utf8 _) (by simp) h
    cases hn'.symm.trans hn
    exact mem_of_find? (find?_intern hi)
  | nameAndType hn hd =>
    obtain ⟨n, d, hn', hd', hi⟩ := parts_of_intern (.utf8 _) (.utf8 _) (by simp) h
    cases hn'.symm.trans hn
    cases hd'.symm.trans hd
    exact mem_of_find? (find?_intern hi)
  | methodRef hk hnt =>
    obtain ⟨k, nt, hk', hnt', hi⟩ :=
      parts_of_intern (.className _) (.nameAndType _ _) (by simp) h
    cases hk'.symm.trans hk
    cases hnt'.symm.trans hnt
    exact mem_of_find? (find?_intern hi)
  | part hpart _ ih =>
    obtain ⟨j, hj⟩ := h.part hpart
    exact ih hj

/-- A call fails exactly where the pool that it leaves refuses what is wanted. -/
theorem Call.answer_eq_error_iff (k : Call) :
    k.answer = .error .full ↔ k.after.Refuses k.wanted := by
  constructor
  · intro h
    exact refuses_of_error (k.outcome_eq.trans (by rw [h]))
  · rintro ⟨c, hneeds, hlacks⟩
    cases hanswer : k.answer with
    | error x => rfl
    | ok i =>
      have hhas : k.after.Has k.wanted i :=
        k.wanted.stable.again (outcome_eq_ok hanswer) (.refl k.after)
      exact absurd (hneeds.mem_slots hhas) hlacks.absent

/-! ### Numbers -/

/-- A number with a constant is not zero and lies inside the pool. -/
theorem bounds_of_at? {c : Constant} (h : p.at? i = some c) :
    1 ≤ i.toNat ∧ i.toNat ≤ p.slots.length := by
  unfold at? at h
  split at h
  · cases h
  · next hne =>
    have hpos : i.toNat ≠ 0 := fun h0 => hne (UInt16.toNat.inj (by simpa using h0))
    obtain ⟨hlt, -⟩ := List.getElem?_eq_some_iff.mp h
    omega

/-- A number that stands for something has a constant, and not an unusable one. -/
theorem at?_of_resolve? (h : p.resolve? i = some wanted) :
    ∃ c, p.at? i = some c ∧ c ≠ .unusable := by
  cases hat : p.at? i with
  | none => simp [resolve?, hat] at h
  | some c =>
    refine ⟨c, rfl, ?_⟩
    rintro rfl
    simp [resolve?, hat] at h

end ConstantPool

/-! ### Classes -/

/-- The pool of a class that is created, or that is read with a right count and with room for
this count, is in order. -/
theorem inOrder_start {start : ClassFile}
    (h : (∃ thisName superName, ClassFile.create thisName superName = .ok start) ∨
      (∃ bytes, ClassFile.parse bytes = .ok start) ∧ start.pool.IsCounted ∧
        start.pool.slots.length ≤ 65534) : start.pool.InOrder := by
  rcases h with ⟨thisName, superName, hcreate⟩ | ⟨⟨bytes, hparse⟩, hcounted, hroom⟩
  · exact (ClassFile.isBuilt_create hcreate).pool
  · obtain ⟨rest, hreadable, -⟩ := ClassFile.parse_eq_ok.mp hparse
    exact ⟨hreadable.pool.laidOut, hcounted, hroom⟩

/-- **Constant pools stay in order.** A class is created, or read with a right count of at most
65534 slots, and then its pool is asked for one thing after the other.  Each pool on the way has a
right count, wide constants and unusable slots in pairs, and the earlier pools in front.  Each
answer is a number from 1 to 65534 of a constant that can be used, and a call fails exactly where
it needs a constant that is missing and whose slots have no room. -/
theorem pool_invariant {start : ClassFile}
    (hstart : (∃ thisName superName, ClassFile.create thisName superName = .ok start) ∨
      (∃ bytes, ClassFile.parse bytes = .ok start) ∧ start.pool.IsCounted ∧
        start.pool.slots.length ≤ 65534) (requests : List Request) :
    (∀ p ∈ start.pool.pools requests, p.storedSize.toNat = p.slots.length + 1 ∧
      p.storedSize.toNat ≤ 65535 ∧ IsPaired p.slots) ∧
    (start.pool.pools requests).Pairwise (fun earlier later => earlier.slots <+: later.slots) ∧
    ∀ call ∈ start.pool.calls requests,
      (∀ i, call.answer = .ok i → 1 ≤ i.toNat ∧ i.toNat ≤ 65534 ∧
        ∃ c, call.after.at? i = some c ∧ c ≠ .unusable) ∧
      (call.answer = .error .full ↔ ∃ c, call.after.Needs call.wanted c ∧
        c ∉ call.after.slots ∧ 65534 < call.after.slots.length + c.slots.length) := by
  have horder : start.pool.InOrder := inOrder_start hstart
  -- each request keeps the order of the pool, so each of the pools has it
  have hkept : ∀ p ∈ start.pool.pools requests, p.InOrder :=
    fun p hp => (grown_of_mem_pools hp).inOrder horder
  refine ⟨?_, ?_, ?_⟩
  · intro p hp
    have hcounted : p.storedSize.toNat = p.slots.length + 1 := (hkept p hp).counted
    have hroom : p.slots.length ≤ 65534 := (hkept p hp).room
    exact ⟨hcounted, by omega, (hkept p hp).laidOut.isPaired⟩
  · refine (pools_grown start.pool requests).imp ?_
    rintro earlier later ⟨⟨added, hadded⟩, -, -⟩
    exact ⟨added, hadded.symm⟩
  · intro call hcall
    have hroom : call.after.slots.length ≤ 65534 :=
      (hkept _ (List.mem_cons_of_mem _ (List.mem_map_of_mem hcall))).room
    constructor
    · intro i hi
      obtain ⟨c, hat, hc⟩ := at?_of_resolve? (call.resolve?_after hi (by omega))
      have hbounds := bounds_of_at? hat
      exact ⟨hbounds.1, by omega, c, hat, hc⟩
    · rw [call.answer_eq_error_iff]
      constructor
      · rintro ⟨c, hneeds, hlacks⟩
        exact ⟨c, hneeds, hlacks.absent, hlacks.room⟩
      · rintro ⟨c, hneeds, habsent, hfull⟩
        exact ⟨c, hneeds, habsent, hfull⟩

/-- A constructor between two wide constants, and the first of these once more. -/
def counterRequests : List Request :=
  [.double 0, .methodRef "p/Counter" "<init>" "()V", .long 7, .double 0]

/-- A created class answers these, and its pools stay in order. -/
theorem pool_invariant_counter :
    (emptyClass.pool.calls counterRequests).map Call.answer = [.ok 5, .ok 10, .ok 11, .ok 5] ∧
      ∀ p ∈ emptyClass.pool.pools counterRequests, p.storedSize.toNat = p.slots.length + 1 ∧
        p.storedSize.toNat ≤ 65535 ∧ IsPaired p.slots :=
  ⟨rfl, (pool_invariant (.inl ⟨_, _, create_emptyClass⟩) counterRequests).1⟩

end Defuse
