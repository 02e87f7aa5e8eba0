import Defuse.Class.Patch
import Defuse.Proofs.ClassFormat
import Defuse.Proofs.Verification

namespace Defuse

open ConstantPool

/-!
# What replacing a body does to a class

* `MethodBody.Holds` — generated code with what is kept of an old body;
* `Member.Rebodied` — a method with another body, in place of its first one or behind all its
  attributes;
* `Rework` — a class with another body in one of its methods, and a larger pool;
* `Rework.isCounted_iff` — when every count of that class is right;
* `Rework.read_write` — then it is read back from its bytes;
* `patch_of_missing`, `patch_of_found`, `patch_of_coded` — how far `patch` comes;
* `patch_ok`, `patch_total` — what it yields are the bytes of such a class, and when it yields
  them.
-/

/-! ### Bodies -/

/-- A body has generated code, no exception handlers, and of given attributes those that do
not refer to positions in the code. -/
structure MethodBody.Holds (b : MethodBody) (p : ConstantPool) (g : GeneratedCode)
    (old : List Attribute) : Prop where
  maxStack : b.maxStack = g.maxStack
  maxLocals : b.maxLocals = g.maxLocals
  code : b.code = Instruction.encodeAll g.instructions
  handlers : b.handlers = []
  attributes : b.attributes = old.filter fun a => ∀ name ∈ positional, a.name? p ≠ some name

/-- A body with new code keeps the attributes that are not tied to places in the code. -/
theorem MethodBody.renewed_holds (b : MethodBody) (p : ConstantPool) (g : GeneratedCode) :
    (b.renewed p g).Holds p g b.attributes where
  maxStack := rfl
  maxLocals := rfl
  code := rfl
  handlers := rfl
  attributes := by
    apply List.filter_congr
    intro a _
    cases a.name? p with
    | none => simp
    | some name =>
      by_cases h : name ∈ positional
      · simp [h]
      · have : ∀ other ∈ positional, name ≠ other := fun other hother heq => h (heq ▸ hother)
        simpa [h] using this

/-- The bytes in front of the code, between it and the attributes, and those of both. -/
theorem MethodBody.length_write (b : MethodBody) :
    b.write.length = 12 + b.code.length + 8 * b.handlers.length +
      (b.attributes.flatMap Attribute.write).length := by
  have hhandlers : (b.handlers.flatMap Handler.write).length = 8 * b.handlers.length := by
    induction b.handlers with
    | nil => rfl
    | cons h hs ih =>
      rw [List.flatMap_cons, List.length_append, ih, List.length_cons]
      simp only [Handler.write, List.length_append, Bytes.length_ofWord16]
      omega
  simp only [write, List.length_append, Bytes.length_ofWord16, Bytes.length_ofWord32, hhandlers]
  omega

/-! ### Methods -/

/-- A method has another body in place of its first one, or, if it had none, behind all its
attributes, and is then no longer abstract or native.  The attributes of the old body are
given. -/
inductive Member.Rebodied (p : ConstantPool) (m : Member) (code : Attribute) :
    List Attribute → Member → Prop where
  | replaced {front back : List Attribute} {a : Attribute} {b : MethodBody}
      (hattributes : m.attributes = front ++ a :: back)
      (hfirst : ∀ x ∈ front, x.name? p ≠ some MethodBody.attributeName)
      (hname : a.name? p = some MethodBody.attributeName)
      (hbody : MethodBody.parse a.info = .ok b) :
      Rebodied p m code b.attributes { m with attributes := front ++ code :: back }
  | appended (hnone : ∀ x ∈ m.attributes, x.name? p ≠ some MethodBody.attributeName) :
      Rebodied p m code []
        { m with
          flags := m.flags &&& ~~~(abstractFlag ||| nativeFlag)
          attributes := m.attributes ++ [code] }

/-- A body stands where the first attribute with its name does. -/
theorem Member.bodyPosition?_eq_length {m : Member} {p : ConstantPool} {front back : List Attribute}
    {a : Attribute} (hattributes : m.attributes = front ++ a :: back)
    (hfirst : ∀ x ∈ front, x.name? p ≠ some MethodBody.attributeName)
    (hname : a.name? p = some MethodBody.attributeName) :
    m.bodyPosition? p = some front.length := by
  have hnone : front.findIdx? (fun x => x.name? p = some MethodBody.attributeName) = none := by
    simpa [List.findIdx?_eq_none_iff] using hfirst
  simp [bodyPosition?, hattributes, List.findIdx?_append, hnone, List.findIdx?_cons, hname]

/-- The first attribute that holds a body is the one that is replaced. -/
theorem Member.withBody_rebodied {m : Member} {p : ConstantPool} {b : MethodBody}
    (h : m.body p = .ok b) (code : Attribute) :
    m.Rebodied p code b.attributes (m.withBody (m.bodyPosition? p) code) := by
  unfold body at h
  split at h
  · next a hfind =>
    -- the attributes split at the first one with the name of a body
    obtain ⟨hname, front, back, hattributes, hfirst⟩ := List.find?_eq_some_iff_append.mp hfind
    simp only [decide_eq_true_eq, Bool.not_eq_eq_eq_not, Bool.not_true,
      decide_eq_false_iff_not] at hname hfirst
    have hset : m.attributes.set front.length code = front ++ code :: back := by
      simp [hattributes]
    rw [bodyPosition?_eq_length hattributes hfirst hname, withBody, hset]
    exact .replaced hattributes hfirst hname h
  · next hfind =>
    have hnone : ∀ x ∈ m.attributes, x.name? p ≠ some MethodBody.attributeName := by
      simpa using hfind
    have hposition : m.bodyPosition? p = none := by
      simpa [bodyPosition?, List.findIdx?_eq_none_iff] using hnone
    cases h
    rw [hposition, withBody]
    exact .appended hnone

/-- The attributes of the method are those that it had, with the new one for the body. -/
theorem Member.Rebodied.mem_attributes {m new : Member} {p : ConstantPool} {code : Attribute}
    {old : List Attribute} (h : m.Rebodied p code old new) {x : Attribute} :
    x ∈ new.attributes → x = code ∨ x ∈ m.attributes := by
  cases h with
  | replaced hattributes _ _ _ =>
    simp only [hattributes, List.mem_append, List.mem_cons]
    rintro (h | h | h)
    · exact .inr (.inl h)
    · exact .inl h
    · exact .inr (.inr (.inr h))
  | appended _ =>
    simp only [List.mem_append, List.mem_singleton]
    rintro (h | h)
    · exact .inr h
    · exact .inl h

/-- The new body is the first one of the method. -/
theorem Member.Rebodied.attributes_new {m new : Member} {p : ConstantPool} {code : Attribute}
    {old : List Attribute} (h : m.Rebodied p code old new) :
    ∃ front back, new.attributes = front ++ code :: back ∧
      ∀ x ∈ front, x.name? p ≠ some MethodBody.attributeName := by
  cases h with
  | replaced _ hfirst _ _ => exact ⟨_, _, rfl, hfirst⟩
  | appended hnone => exact ⟨_, [], rfl, hnone⟩

/-- The new attribute is among those of the method. -/
theorem Member.Rebodied.code_mem {m new : Member} {p : ConstantPool} {code : Attribute}
    {old : List Attribute} (h : m.Rebodied p code old new) : code ∈ new.attributes := by
  cases h <;> simp

/-! ### Right counts -/

/-- The attributes of a method with a new body can be counted where there was a body, or where
there is room for another attribute. -/
theorem Member.Rebodied.length_le_iff {m new : Member} {p : ConstantPool} {code : Attribute}
    {old : List Attribute} (h : m.Rebodied p code old new) (hm : m.attributes.length ≤ 65535) :
    new.attributes.length ≤ 65535 ↔ m.attributes.length < 65535 ∨
      ∃ a ∈ m.attributes, a.name? p = some MethodBody.attributeName := by
  cases h with
  | @replaced front back a _ hattributes _ hname _ =>
    have hlen : (front ++ code :: back).length = m.attributes.length := by simp [hattributes]
    refine iff_of_true (hlen ▸ hm) (.inr ⟨a, ?_, hname⟩)
    simp [hattributes]
  | appended hnone =>
    rw [List.length_append, List.length_singleton]
    constructor
    · intro hlen
      exact .inl (by omega)
    · rintro (hlen | ⟨a, ha, hname⟩)
      · omega
      · exact absurd hname (hnone a ha)

/-- A word that is the length of a list is the word of this length. -/
theorem toUInt16_of_toNat {n : Nat} {w : UInt16} (h : n = w.toNat) : n.toUInt16 = w := by
  rw [h]
  exact UInt16.ofNat_toNat

/-- A count that is right is not changed. -/
theorem Member.IsCounted.synchronised {m : Member} (h : m.IsCounted) : m.synchronised = m := by
  rw [Member.synchronised, toUInt16_of_toNat h.count]

theorem map_synchronised {ms : List Member} (h : ∀ m ∈ ms, m.IsCounted) :
    ms.map Member.synchronised = ms :=
  (List.map_congr_left fun m hm => (h m hm).synchronised).trans (List.map_id' ms)

/-- A method with a new body is counted as long as its attributes can be counted, and the
data of the new one. -/
theorem Member.Rebodied.isCounted_iff {m new : Member} {p : ConstantPool} {code : Attribute}
    {old : List Attribute} (h : m.Rebodied p code old new) (hm : m.IsCounted) :
    new.synchronised.IsCounted ↔ new.attributes.length ≤ 65535 ∧ code.IsCounted := by
  rw [isCounted_synchronised_iff]
  have hattributes : (∀ x ∈ new.attributes, x.IsCounted) ↔ code.IsCounted := by
    constructor
    · intro hall
      exact hall code h.code_mem
    · intro hcode x hx
      rcases h.mem_attributes hx with rfl | hx
      · exact hcode
      · exact hm.attributes x hx
  rw [hattributes]

/-! ### Classes -/

/-- A class with another body in one of its methods, and with a pool that has grown. -/
structure Rework (c : ClassFile) where
  /-- Where the method stands. -/
  position : Nat
  /-- The method. -/
  method : Member
  /-- The code of its new body. -/
  generated : GeneratedCode
  /-- The pool. -/
  pool : ConstantPool
  /-- The number of the name of the new body. -/
  nameIndex : UInt16
  /-- The attributes of the old body. -/
  old : List Attribute
  /-- The new body. -/
  body : MethodBody
  /-- The method with the new body. -/
  new : Member
  isMethod : c.methods[position]? = some method
  grown : Grown c.pool pool
  named : pool.text? nameIndex = some MethodBody.attributeName
  holds : body.Holds pool generated old
  rebodied : method.Rebodied pool (.create nameIndex body.write) old new

namespace Rework

variable {c : ClassFile} (r : Rework c)

/-- The attribute of the new body. -/
def code : Attribute := .create r.nameIndex r.body.write

/-- The class with the new body, every count set to the length of its list. -/
def result : ClassFile :=
  { c with pool := r.pool, methods := c.methods.set r.position r.new }.synchronised

/-- The counts of the format are large enough for the class with the new body: the pool was not
larger already, there is a body to replace or room for another attribute, and the data of the
new body can be counted. -/
structure Fits : Prop where
  pool : c.pool.slots.length ≤ 65534
  attributes : r.method.attributes.length < 65535 ∨
    ∃ a ∈ r.method.attributes, a.name? r.pool = some MethodBody.attributeName
  info : r.body.write.length < 2 ^ 32

theorem position_lt : r.position < c.methods.length :=
  (List.getElem?_eq_some_iff.mp r.isMethod).1

theorem method_mem : r.method ∈ c.methods := List.mem_of_getElem? r.isMethod

/-- Nothing but the pool and the method is another. -/
theorem result_eq (hc : c.ListsCounted) :
    r.result = { c with
      pool := r.result.pool
      methods := c.methods.set r.position r.new.synchronised } := by
  simp only [result, ClassFile.synchronised, List.length_set, List.map_set,
    map_synchronised hc.fields, map_synchronised hc.methods, toUInt16_of_toNat hc.interfaces,
    toUInt16_of_toNat hc.fieldsCount, toUInt16_of_toNat hc.methodsCount,
    toUInt16_of_toNat hc.attributesCount]

/-- A pool that grows is one that does not exceed the room of the format. -/
theorem length_pool_le_iff : r.pool.slots.length ≤ 65534 ↔ c.pool.slots.length ≤ 65534 := by
  obtain ⟨added, hadded⟩ := r.grown.appended
  -- a pool that is beyond the room of the format is not added to
  rcases r.grown.room with heq | ⟨-, hroom⟩
  · rw [heq]
  · have hle : c.pool.slots.length ≤ r.pool.slots.length := by simp [hadded]
    simp only [maxIndex] at hroom
    omega

/-- The count of the new pool is right exactly if the old pool left room for it. -/
theorem isCounted_pool_iff : r.result.pool.IsCounted ↔ c.pool.slots.length ≤ 65534 := by
  rw [← r.length_pool_le_iff]
  show (r.pool.slots.length + 1).toUInt16.toNat = r.pool.slots.length + 1 ↔ _
  rw [Bytes.toNat_toUInt16_eq_iff]
  omega

/-- The length of the new attribute is right exactly if it fits in its word. -/
theorem isCounted_code_iff : r.code.IsCounted ↔ r.body.write.length < 2 ^ 32 :=
  Attribute.isCounted_create_iff

/-- The methods of the result are the new one and others. -/
theorem methods_isCounted_iff (hc : c.ListsCounted) :
    (∀ m ∈ r.result.methods, m.IsCounted) ↔ r.new.synchronised.IsCounted := by
  rw [r.result_eq hc]
  constructor
  · intro h
    exact h _ (List.mem_set r.position_lt r.new.synchronised)
  · intro h m hm
    rcases List.mem_or_eq_of_mem_set hm with hm | rfl
    · exact hc.methods m hm
    · exact h

/-- **Right counts.** Every count of the result is right exactly when the format has room for
it. -/
theorem isCounted_iff (hc : c.ListsCounted) : r.result.IsCounted ↔ r.Fits := by
  have hmethod := hc.methods _ r.method_mem
  have hnew := r.rebodied.isCounted_iff hmethod
  have hcode := r.isCounted_code_iff
  -- the method was read with its count, which has room for as many attributes
  have hmost : r.method.attributes.length ≤ 65535 := by
    have := r.method.attributesCount.toNat_lt
    rw [hmethod.count]
    omega
  rw [r.rebodied.length_le_iff hmost] at hnew
  constructor
  · rintro ⟨hpool, hlists⟩
    obtain ⟨hattributes, hinfo⟩ := hnew.mp ((r.methods_isCounted_iff hc).mp hlists.methods)
    exact ⟨r.isCounted_pool_iff.mp hpool, hattributes, hcode.mp hinfo⟩
  · rintro ⟨hpool, hattributes, hinfo⟩
    have hmethods := (r.methods_isCounted_iff hc).mpr (hnew.mpr ⟨hattributes, hcode.mpr hinfo⟩)
    refine ⟨r.isCounted_pool_iff.mpr hpool, ?_⟩
    rw [r.result_eq hc] at hmethods ⊢
    exact { hc with
      methodsCount := by
        rw [← hc.methodsCount]
        exact List.length_set
      methods := hmethods }

/-- A pool that is laid out stays so. -/
theorem isLaidOut (hc : c.pool.IsLaidOut) : r.result.pool.IsLaidOut := r.grown.laidOut hc

/-- A result that fits is read back from its bytes. -/
theorem read_write (hc : c.IsReadable) (hfits : r.Fits)
    (hwritable : r.result.pool.isWritable = true) :
    ClassFile.read r.result.write = .ok (r.result, []) := by
  have hreadable := ((r.isCounted_iff hc.lists).mpr hfits).isReadable (r.isLaidOut hc.pool.laidOut)
    hwritable
  exact ClassFile.read_undoes.read_all hreadable

/-- What is read back from a result has the stored count of its pool. -/
theorem storedSize_of_read {d : ClassFile} {rest : Bytes}
    (hd : ClassFile.read r.result.write = .ok (d, rest)) :
    d.pool.storedSize = r.result.pool.storedSize := by
  obtain ⟨-, hbytes⟩ := (ClassFile.read_undoes _ _ _).mp hd
  apply Bytes.ofWord16_inj
  rw [← d.storedSize_bytes rest, ← hbytes, ← r.result.storedSize_bytes [], List.append_nil]

/-- The pool of a result that is beyond the room of the format has no right count, whatever is
read back. -/
theorem not_isCounted_of_full (hfull : c.pool.slots.length = 65535) {d : ClassFile}
    {rest : Bytes} (hd : ClassFile.read r.result.write = .ok (d, rest)) :
    ¬ d.pool.IsCounted := by
  have hsame : r.pool.slots.length = 65535 := by
    have hle := r.grown.length_le (Nat.le_of_eq hfull)
    have hiff := r.length_pool_le_iff
    omega
  -- one more than the greatest number is stored as zero
  have hzero : d.pool.storedSize = 0 := by
    rw [r.storedSize_of_read hd]
    show (r.pool.slots.length + 1).toUInt16 = 0
    rw [hsame]
    rfl
  intro hcounted
  rw [ConstantPool.IsCounted, hzero] at hcounted
  exact absurd hcounted (by simp)

end Rework

/-! ### Patching -/

/-- A method of a class that has no other is found if it has the name and the descriptor. -/
theorem ClassFile.findMethod_single {c : ClassFile} {m : Member} {name descriptor : String}
    (hmethods : c.methods = [m]) (hname : c.pool.text? m.nameIndex = some name)
    (hdescriptor : c.pool.text? m.descriptorIndex = some descriptor) :
    c.findMethod name descriptor = some 0 := by
  have hnamed : m.isNamed c.pool name descriptor = true := by
    simp [Member.isNamed, hname, hdescriptor]
  rw [findMethod, hmethods, List.findIdx?_cons, hnamed]
  rfl

/-- The slots of a pool that was read never exceed the greatest number by more than one. -/
theorem ConstantPool.IsReadable.length_le {p : ConstantPool} (h : p.IsReadable) :
    p.slots.length ≤ 65535 := by
  have hsize := p.storedSize.toNat_lt
  have hfills := h.fills.length_le
  rw [← h.laidOut] at hfills
  omega

/-- The code that a compiler makes, and the number of the name of its attribute. -/
theorem generated_eq_ok {compiler : Compiler} {method : MethodContext} {source : String}
    {p q : ConstantPool} {g : GeneratedCode} {nameIndex : UInt16} :
    outcome (generated compiler method source) p = (.ok (g, nameIndex), q) ↔
      ∃ mid, outcome (compiler method source) p = (.ok g, mid) ∧
        outcome (utf8 MethodBody.attributeName) mid = (.ok nameIndex, q) := by
  constructor
  · intro h
    obtain ⟨g', mid, hg, h⟩ := outcome_bind_eq_ok.mp h
    obtain ⟨n, q', hn, h⟩ := outcome_bind_eq_ok.mp h
    cases h
    exact ⟨mid, hg, outcome_compile.mp hn⟩
  · rintro ⟨mid, hg, hn⟩
    exact outcome_bind_eq_ok.mpr ⟨g, mid, hg,
      outcome_bind_eq_ok.mpr ⟨nameIndex, q, outcome_compile.mpr hn, rfl⟩⟩

/-- Generating code only lets the pool grow. -/
theorem generated_grown {method : MethodContext} {source : String} {p q : ConstantPool}
    {g : GeneratedCode} {nameIndex : UInt16}
    (h : outcome (generated compile method source) p = (.ok (g, nameIndex), q)) : Grown p q := by
  obtain ⟨mid, hcompile, hname⟩ := generated_eq_ok.mp h
  exact (compile_grown hcompile).trans ((Stable.utf8 _).grown hname)

/-- The class with new code is the one with the body that keeps of the old one what can be
kept. -/
theorem ClassFile.withCode_eq_ok {c d : ClassFile} {position : Nat} {method : Member}
    {nameIndex : UInt16} {g : GeneratedCode} :
    c.withCode position method nameIndex g = .ok d ↔
      ∃ body, method.body c.pool = .ok body ∧
        d = { c with
          methods := c.methods.set position (method.withBody (method.bodyPosition? c.pool)
            (.create nameIndex (body.renewed c.pool g).write)) }.synchronised := by
  unfold withCode
  cases method.body c.pool with
  | error e =>
    constructor
    · intro h
      cases h
    · rintro ⟨_, h, -⟩
      cases h
  | ok body =>
    constructor
    · intro h
      cases h
      exact ⟨body, rfl, rfl⟩
    · rintro ⟨_, h, rfl⟩
      cases h
      rfl

/-- If the old body can be read, there is a class with new code, which has the same constants. -/
theorem ClassFile.exists_withCode {c : ClassFile} {method : Member} {q : ConstantPool}
    {body : MethodBody} (hbody : method.body q = .ok body) (position : Nat) (nameIndex : UInt16)
    (g : GeneratedCode) :
    ∃ d, { c with pool := q }.withCode position method nameIndex g = .ok d ∧
      d.pool.isWritable = q.isWritable :=
  ⟨_, withCode_eq_ok.mpr ⟨body, hbody, rfl⟩, rfl⟩

/-- A method that is found is there. -/
theorem ClassFile.exists_of_findMethod {c : ClassFile} {name descriptor : String} {position : Nat}
    (h : c.findMethod name descriptor = some position) :
    ∃ method, c.methods[position]? = some method := by
  obtain ⟨hlt, -⟩ := List.findIdx?_eq_some_iff_getElem.mp h
  exact ⟨_, List.getElem?_eq_getElem hlt⟩

section

variable {compiler : Compiler} {bytes out : Bytes} {name descriptor source : String}
  {c d : ClassFile} {position : Nat} {method : Member} {g : GeneratedCode} {nameIndex : UInt16}
  {q : ConstantPool} {body : MethodBody}

/-- A method that is not there is reported. -/
theorem patch_of_missing (hparse : ClassFile.parse bytes = .ok c)
    (hmissing : c.findMethod name descriptor = none) :
    patch compiler bytes name descriptor source = .error (.methodNotFound name descriptor) := by
  unfold patch
  simp only [hparse, mapError_ok, bind, Except.bind, hmissing]
  rfl

/-- Once the method is found, the code is generated, put into the class and written. -/
theorem patch_of_found (hparse : ClassFile.parse bytes = .ok c)
    (hposition : c.findMethod name descriptor = some position)
    (hmethod : c.methods[position]? = some method) :
    patch compiler bytes name descriptor source =
      match outcome (generated compiler ⟨name, descriptor, method.isStatic⟩ source) c.pool with
      | (.error e, _) => .error (.compileFailed e)
      | (.ok (g, nameIndex), q) =>
        ({ c with pool := q }.withCode position method nameIndex g).mapError
          (fun e => .malformed (.unreadable e)) >>= fun d =>
            d.toBytes.mapError fun e => .malformed (.unwritable e) := by
  unfold patch
  simp only [hparse, mapError_ok, bind, Except.bind, hposition, hmethod]
  rfl

/-- With the new code in it, the class is written. -/
theorem patch_of_coded (hparse : ClassFile.parse bytes = .ok c)
    (hposition : c.findMethod name descriptor = some position)
    (hmethod : c.methods[position]? = some method)
    (hrun : outcome (generated compiler ⟨name, descriptor, method.isStatic⟩ source) c.pool =
      (.ok (g, nameIndex), q))
    (hcode : { c with pool := q }.withCode position method nameIndex g = .ok d) :
    patch compiler bytes name descriptor source =
      d.toBytes.mapError fun e => .malformed (.unwritable e) := by
  rw [patch_of_found hparse hposition hmethod, hrun]
  simp only [hcode]
  rfl

/-- What `patch` yields: each of its steps, one after the other. -/
theorem patch_eq_ok :
    patch compiler bytes name descriptor source = .ok out ↔
      ∃ c position method g nameIndex q d,
        ClassFile.parse bytes = .ok c ∧ c.findMethod name descriptor = some position ∧
        c.methods[position]? = some method ∧
        outcome (generated compiler ⟨name, descriptor, method.isStatic⟩ source) c.pool =
          (.ok (g, nameIndex), q) ∧
        { c with pool := q }.withCode position method nameIndex g = .ok d ∧
        d.pool.isWritable = true ∧ out = d.write := by
  constructor
  · intro h
    -- in the order in which the steps are taken: each failure is an error, so each step went well
    cases hparse : ClassFile.parse bytes with
    | error e =>
      unfold patch at h
      rw [hparse] at h
      cases h
    | ok c =>
      cases hposition : c.findMethod name descriptor with
      | none =>
        rw [patch_of_missing hparse hposition] at h
        cases h
      | some position =>
        obtain ⟨method, hmethod⟩ := ClassFile.exists_of_findMethod hposition
        rw [patch_of_found hparse hposition hmethod] at h
        split at h
        · cases h
        · next g nameIndex q hrun =>
          cases hcode : { c with pool := q }.withCode position method nameIndex g with
          | error e =>
            rw [hcode] at h
            cases h
          | ok d =>
            rw [hcode] at h
            cases hbytes : d.toBytes with
            | error e =>
              simp only [mapError_ok, bind, Except.bind, hbytes] at h
              cases h
            | ok written =>
              simp only [mapError_ok, bind, Except.bind, hbytes] at h
              cases h
              obtain ⟨hwritable, hout⟩ := ClassFile.toBytes_eq_ok.mp hbytes
              exact ⟨c, position, method, g, nameIndex, q, d, rfl, hposition, hmethod, hrun,
                hcode, hwritable, hout.symm⟩
  · rintro ⟨c, position, method, g, nameIndex, q, d, hparse, hposition, hmethod, hrun, hcode,
      hwritable, hout⟩
    have hbytes : d.toBytes = .ok out := ClassFile.toBytes_eq_ok.mpr ⟨hwritable, hout.symm⟩
    rw [patch_of_coded hparse hposition hmethod hrun hcode, hbytes]
    rfl

/-- A method that is found, with a readable body or none, is patched if its new body can be
generated and every text of the pool be written. -/
theorem patch_total (hparse : ClassFile.parse bytes = .ok c)
    (hposition : c.findMethod name descriptor = some position)
    (hmethod : c.methods[position]? = some method)
    (hrun : outcome (generated compiler ⟨name, descriptor, method.isStatic⟩ source) c.pool =
      (.ok (g, nameIndex), q))
    (hbody : method.body q = .ok body) (hwritable : q.isWritable = true) :
    ∃ out, patch compiler bytes name descriptor source = .ok out := by
  obtain ⟨d, hcode, hd⟩ := ClassFile.exists_withCode hbody position nameIndex g
  rw [← hd] at hwritable
  exact ⟨d.write, patch_eq_ok.mpr ⟨c, position, method, g, nameIndex, q, d, hparse, hposition,
    hmethod, hrun, hcode, hwritable, rfl⟩⟩

end

/-- **What patching yields.** The bytes of a class in which the method has the body that the
source text compiles to. -/
theorem patch_ok {bytes out : Bytes} {name descriptor source : String}
    (h : patch compile bytes name descriptor source = .ok out) :
    ∃ c, ∃ r : Rework c, ∃ mid, ClassFile.parse bytes = .ok c ∧
      c.findMethod name descriptor = some r.position ∧
      outcome (compile ⟨name, descriptor, r.method.isStatic⟩ source) c.pool =
        (.ok r.generated, mid) ∧
      outcome (utf8 MethodBody.attributeName) mid = (.ok r.nameIndex, r.pool) ∧
      r.result.pool.isWritable = true ∧ out = r.result.write := by
  obtain ⟨c, position, method, g, nameIndex, q, d, hparse, hposition, hmethod, hrun, hcode,
    hwritable, rfl⟩ := patch_eq_ok.mp h
  obtain ⟨mid, hcompile, hname⟩ := generated_eq_ok.mp hrun
  obtain ⟨body, hbody, rfl⟩ := ClassFile.withCode_eq_ok.mp hcode
  obtain ⟨-, hreadable, -⟩ := ClassFile.parse_eq_ok.mp hparse
  have hgrown : Grown c.pool q := generated_grown hrun
  have hlength := hgrown.length_le hreadable.pool.length_le
  let r : Rework c :=
    { position, method, generated := g, pool := q, nameIndex, old := body.attributes
      body := body.renewed q g
      new := _
      isMethod := hmethod
      grown := hgrown
      named := text?_utf8 hname hlength
      holds := body.renewed_holds q g
      rebodied := Member.withBody_rebodied hbody _ }
  exact ⟨c, r, mid, hparse, hposition, hcompile, hname, hwritable, rfl⟩

end Defuse
