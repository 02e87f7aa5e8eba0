import Defuse.Class.ClassFile
import Defuse.Proofs.PoolGrowth

namespace Defuse

/-!
# Interning

* `ConstantPool.Call` — a pool is asked for something: what it answers, and what it becomes;
* `ConstantPool.calls`, `ConstantPool.pools` — the calls for a list of requests, one after the
  other, and the pools on the way;
* `ConstantPool.calls_grown`, `ConstantPool.pools_grown` — from one call to all later ones a pool
  only grows;
* `ConstantPool.resolve?` — what a number stands for, through all constants it refers to;
* `ConstantPool.resolve?_of_answer` — an answer stands for what was asked for;
* `interning` — for all calls of a pool: an answer stands for what was asked for, it is the same
  later on, and it is not the answer to anything else.
-/

namespace ConstantPool

/-! ### Calls -/

/-- A pool is asked for something. -/
structure Call where
  /-- The pool. -/
  before : ConstantPool
  /-- What it is asked for. -/
  wanted : Request
deriving DecidableEq, Repr

namespace Call

/-- The number of what is wanted, if there is room for it. -/
def answer (k : Call) : Except PoolFull UInt16 := (outcome k.wanted.edit k.before).1

/-- The pool that is left. -/
def after (k : Call) : ConstantPool := (outcome k.wanted.edit k.before).2

theorem outcome_eq (k : Call) : outcome k.wanted.edit k.before = (k.answer, k.after) := rfl

/-- A call that is answered ran without an error. -/
theorem outcome_eq_ok {k : Call} {i : UInt16} (h : k.answer = .ok i) :
    outcome k.wanted.edit k.before = (.ok i, k.after) := by
  rw [outcome_eq, h]

theorem grown (k : Call) : Grown k.before k.after := k.wanted.stable.grows k.before

end Call

/-- The calls of a pool for one thing after the other. -/
def calls (p : ConstantPool) : List Request → List Call
  | [] => []
  | wanted :: requests => ⟨p, wanted⟩ :: calls (Call.mk p wanted).after requests

/-- The pools between calls, with the first one and the last one. -/
def pools (p : ConstantPool) (requests : List Request) : List ConstantPool :=
  p :: (calls p requests).map Call.after

variable {p q : ConstantPool} {k : Call} {requests : List Request}

/-- Before each call a pool has grown. -/
theorem grown_of_mem_calls (h : k ∈ calls p requests) : Grown p k.before := by
  induction requests generalizing p with
  | nil => cases h
  | cons wanted requests ih =>
    rcases List.mem_cons.mp h with rfl | h
    · exact .refl p
    · exact (Call.grown ⟨p, wanted⟩).trans (ih h)

/-- What a call leaves has grown when a later one comes. -/
theorem calls_grown (p : ConstantPool) (requests : List Request) :
    (calls p requests).Pairwise fun earlier later => Grown earlier.after later.before := by
  induction requests generalizing p with
  | nil => exact .nil
  | cons wanted requests ih =>
    exact .cons (fun _ hlater => grown_of_mem_calls hlater) (ih _)

/-- Every pool along the calls has grown from the first one. -/
theorem grown_of_mem_pools (h : q ∈ pools p requests) : Grown p q := by
  rcases List.mem_cons.mp h with rfl | h
  · exact .refl _
  · obtain ⟨k, hk, rfl⟩ := List.mem_map.mp h
    exact (grown_of_mem_calls hk).trans k.grown

/-- Every pool has grown into all later ones. -/
theorem pools_grown (p : ConstantPool) (requests : List Request) :
    (pools p requests).Pairwise Grown := by
  refine .cons (fun q hq => grown_of_mem_pools (List.mem_cons_of_mem p hq)) ?_
  refine List.pairwise_map.mpr ((calls_grown p requests).imp ?_)
  intro earlier later hgrown
  exact hgrown.trans later.grown

/-! ### What a number stands for -/

/-- The name and the descriptor that a number stands for. -/
def nameAndType? (p : ConstantPool) (index : UInt16) : Option (String × String) :=
  match p.at? index with
  | some (.nameAndType name descriptor) => do
    let name ← p.text? name
    let descriptor ← p.text? descriptor
    return (name, descriptor)
  | _ => none

/-- What a number stands for, as something that a pool can be asked for: its constant, with all
that this refers to. -/
def resolve? (p : ConstantPool) (index : UInt16) : Option Request :=
  match p.at? index with
  | some (.utf8 _) => (p.text? index).map .utf8
  | some (.className _) => (p.classText? index).map .className
  | some (.string text) => (p.text? text).map .string
  | some (.integer value) => some (.integer value)
  | some (.long value) => some (.long value)
  | some (.float bits) => some (.float bits)
  | some (.double bits) => some (.double bits)
  | some (.nameAndType _ _) => (p.nameAndType? index).map fun (n, d) => .nameAndType n d
  | some (.methodRef owner nameAndType) => do
    let owner ← p.classText? owner
    let (name, descriptor) ← p.nameAndType? nameAndType
    return .methodRef owner name descriptor
  | _ => none

namespace Grown

variable {i : UInt16}

/-- A class that can be named stays so in a larger pool. -/
theorem classText?_eq_some (h : Grown p q) {name : String} (hi : p.classText? i = some name) :
    q.classText? i = some name := by
  unfold classText? at hi
  split at hi
  · next hat =>
    rw [classText?, h.at?_eq_some hat]
    exact h.text?_eq_some hi
  · cases hi

/-- A name and type that can be told stay so in a larger pool. -/
theorem nameAndType?_eq_some (h : Grown p q) {name descriptor : String}
    (hi : p.nameAndType? i = some (name, descriptor)) :
    q.nameAndType? i = some (name, descriptor) := by
  unfold nameAndType? at hi
  split at hi
  · next hat =>
    simp only [Option.bind_eq_bind, Option.bind_eq_some_iff, Option.pure_def, Option.some.injEq,
      Prod.mk.injEq] at hi
    obtain ⟨_, hname, _, hdescriptor, rfl, rfl⟩ := hi
    rw [nameAndType?, h.at?_eq_some hat]
    simp [h.text?_eq_some hname, h.text?_eq_some hdescriptor]
  · cases hi

/-- A number stands for what it did: its constant is at its place, and so are those that this
refers to. -/
theorem resolve?_eq_some (h : Grown p q) {wanted : Request} (hi : p.resolve? i = some wanted) :
    q.resolve? i = some wanted := by
  -- one case for each constant; those with parts are followed into the larger pool
  cases hat : p.at? i with
  | none => simp [resolve?, hat] at hi
  | some c =>
    simp only [resolve?, hat] at hi
    rw [resolve?, h.at?_eq_some hat]
    cases c with
    | utf8 bytes =>
      obtain ⟨_, htext, rfl⟩ := Option.map_eq_some_iff.mp hi
      simp [h.text?_eq_some htext]
    | className name =>
      obtain ⟨_, hname, rfl⟩ := Option.map_eq_some_iff.mp hi
      simp [h.classText?_eq_some hname]
    | string text =>
      obtain ⟨_, htext, rfl⟩ := Option.map_eq_some_iff.mp hi
      simp [h.text?_eq_some htext]
    | nameAndType name descriptor =>
      obtain ⟨⟨_, _⟩, hmember, rfl⟩ := Option.map_eq_some_iff.mp hi
      simp [h.nameAndType?_eq_some hmember]
    | methodRef owner nameAndType =>
      simp only [Option.bind_eq_bind, Option.bind_eq_some_iff, Option.pure_def, Option.some.injEq,
        Prod.exists] at hi
      obtain ⟨_, howner, _, _, hmember, rfl⟩ := hi
      simp [h.classText?_eq_some howner, h.nameAndType?_eq_some hmember]
    | _ => exact hi

end Grown

/-! ### What an answer stands for -/

/-- The number that was answered for a name and type leads back to both texts. -/
theorem nameAndType?_of_answer {name descriptor : String} {i : UInt16}
    (h : outcome (nameAndType name descriptor) p = (.ok i, q)) (hq : q.slots.length ≤ 65535) :
    q.nameAndType? i = some (name, descriptor) := by
  obtain ⟨n, d, hat, hname, hdescriptor⟩ := at?_nameAndType h hq
  simp [nameAndType?, hat, hname, hdescriptor]

/-- The number that was answered for a class leads back to its name. -/
theorem classText?_of_answer {name : String} {i : UInt16}
    (h : outcome (className name) p = (.ok i, q)) (hq : q.slots.length ≤ 65535) :
    q.classText? i = some name := by
  obtain ⟨n, hat, hname⟩ := at?_className h hq
  simp [classText?, hat, hname]

/-- The answer to a request stands for what was asked for. -/
theorem resolve?_of_answer {wanted : Request} {i : UInt16}
    (h : outcome wanted.edit p = (.ok i, q)) (hq : q.slots.length ≤ 65535) :
    q.resolve? i = some wanted := by
  -- one case for each request, with the parts that it has added first
  cases wanted with
  | utf8 text =>
    have hat := at?_intern h hq
    simp [resolve?, hat, text?_of_at? hat]
  | className name =>
    obtain ⟨n, hat, -⟩ := at?_className h hq
    simp [resolve?, hat, classText?_of_answer h hq]
  | string text =>
    obtain ⟨n, hat, htext⟩ := at?_string h hq
    simp [resolve?, hat, htext]
  | integer value | long value | float bits | double bits => simp [resolve?, at?_intern h hq]
  | nameAndType name descriptor =>
    obtain ⟨n, d, hat, -⟩ := at?_nameAndType h hq
    simp [resolve?, hat, nameAndType?_of_answer h hq]
  | methodRef owner name descriptor =>
    obtain ⟨k, nt, hk, hnt, hi⟩ :=
      parts_of_intern (.className owner) (.nameAndType name descriptor) (by simp) h
    have howner := classText?_of_answer hk hq
    have hmember := nameAndType?_of_answer hnt hq
    simp [resolve?, at?_intern hi hq, howner, hmember]

/-! ### Calls one after the other -/

variable {k earlier later : Call} {i : UInt16}

/-- No pool on the way has more slots than can be numbered. -/
theorem length_after_le (hp : p.slots.length ≤ 65535) (hk : k ∈ calls p requests) :
    k.after.slots.length ≤ 65535 :=
  ((grown_of_mem_calls hk).trans k.grown).length_le hp

namespace Call

/-- An answer stands for what was asked for. -/
theorem resolve?_after (h : k.answer = .ok i) (hk : k.after.slots.length ≤ 65535) :
    k.after.resolve? i = some k.wanted :=
  resolve?_of_answer (outcome_eq_ok h) hk

/-- A later call for the same has the same answer and changes nothing. -/
theorem again (h : earlier.answer = .ok i) (hgrown : Grown earlier.after later.before)
    (hsame : later.wanted = earlier.wanted) :
    later.answer = .ok i ∧ later.after = later.before := by
  have hrun : outcome later.wanted.edit later.before = (.ok i, later.before) := by
    rw [hsame]
    exact earlier.wanted.stable.again (outcome_eq_ok h) hgrown
  rw [answer, after, hrun]
  exact ⟨rfl, rfl⟩

/-- A number that stands for one thing is no answer to a call for another. -/
theorem answer_ne {other : Request} (h : k.after.resolve? i = some other)
    (hk : k.after.slots.length ≤ 65535) (hne : k.wanted ≠ other) : k.answer ≠ .ok i := by
  intro hanswer
  have hwanted := resolve?_after hanswer hk
  rw [h] at hwanted
  exact hne (Option.some.inj hwanted).symm

end Call

end ConstantPool

open ConstantPool

/-- **Interning.** Whatever the pool of a class holds, and whatever it is asked for, one thing
after the other: an answer stands for exactly what was asked for, then and ever after; a later
call for the same has the same answer and changes nothing; and a later call for anything else has
another answer. -/
theorem interning {c : ClassFile} (hroom : c.pool.slots.length ≤ 65535)
    (requests : List Request) :
    (∀ call ∈ c.pool.calls requests, ∀ i, call.answer = .ok i →
      call.after.resolve? i = some call.wanted) ∧
    (c.pool.calls requests).Pairwise fun earlier later => ∀ i, earlier.answer = .ok i →
      later.after.resolve? i = some earlier.wanted ∧
      (later.wanted = earlier.wanted → later.answer = .ok i ∧ later.after = later.before) ∧
      (later.wanted ≠ earlier.wanted → later.answer ≠ .ok i) := by
  have hstands : ∀ call ∈ c.pool.calls requests, ∀ i, call.answer = .ok i →
      call.after.resolve? i = some call.wanted :=
    fun call hcall i hi => call.resolve?_after hi (length_after_le hroom hcall)
  refine ⟨hstands, (calls_grown c.pool requests).imp_of_mem ?_⟩
  intro earlier later hearlier hlater hgrown i hi
  -- the number stands for the same when the later call is over
  have hlasts : later.after.resolve? i = some earlier.wanted :=
    (hgrown.trans later.grown).resolve?_eq_some (hstands earlier hearlier i hi)
  exact ⟨hlasts, Call.again hi hgrown, Call.answer_ne hlasts (length_after_le hroom hlater)⟩

/-- A class whose pool has one text many times over, and room for one more constant. -/
def crowdedClass : ClassFile :=
  { minor := 0, major := 52
    pool := ⟨65534, List.replicate 65533 (.utf8 [])⟩
    flags := 0x0021, thisClass := 0, superClass := 0, interfacesCount := 0, interfaces := []
    fieldsCount := 0, fields := [], methodsCount := 0, methods := []
    attributesCount := 0, attributes := [] }

/-- There is no room for a wide constant, then there is for a narrow one, then for none. -/
def crowdedRequests : List Request :=
  [.long 7, .utf8 "", .integer 7, .className "p/Counter", .integer 7, .utf8 ""]

/-- What is answered for a crowded pool is answered again, though other requests are refused. -/
theorem interning_crowded :
    crowdedClass.pool.slots.length ≤ 65535 ∧
      (crowdedClass.pool.calls crowdedRequests).Pairwise fun earlier later =>
        ∀ i, earlier.answer = .ok i →
          later.after.resolve? i = some earlier.wanted ∧
          (later.wanted = earlier.wanted → later.answer = .ok i ∧ later.after = later.before) ∧
          (later.wanted ≠ earlier.wanted → later.answer ≠ .ok i) := by
  have hroom : crowdedClass.pool.slots.length ≤ 65535 := by
    show (List.replicate 65533 _).length ≤ 65535
    rw [List.length_replicate]
    omega
  exact ⟨hroom, (interning hroom crowdedRequests).2⟩

end Defuse
