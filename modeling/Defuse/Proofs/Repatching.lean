import Defuse.Proofs.Stub

namespace Defuse

open ConstantPool

/-!
# Patching twice

Whatever the first pass looked up or appended, the second one finds where the first one left
it, so it comes to the same class.

* `Body.maxStack_eq` — a generated body takes as much of the stack in every later pool;
* `compile_again` — a source text compiles to the same code in every later pool, and adds
  nothing to it;
* `MethodBody.Holds.renewed_eq`, `Member.withBody_eq`, `ClassFile.synchronised_synchronised` —
  each step of a patch leaves alone what the same step has made;
* `Rework.patch_write` — a class that has been patched is patched to itself;
* `patch_idempotent` — patching what patching yields, once more, yields the same bytes.
-/

/-! ### Code -/

/-- The descriptor of a method stays its descriptor. -/
theorem ConstantPool.Grown.methodDescriptor?_eq_some {p q : ConstantPool} (h : Grown p q)
    {i : UInt16} {descriptor : String} (hd : p.methodDescriptor? i = some descriptor) :
    q.methodDescriptor? i = some descriptor := by
  unfold ConstantPool.methodDescriptor? at hd
  split at hd
  · next nameAndType hmethod =>
    split at hd
    · next type hnameAndType =>
      simp only [methodDescriptor?, h.at?_eq_some hmethod, h.at?_eq_some hnameAndType]
      exact h.text?_eq_some hd
    · cases hd
  · cases hd

/-- Only what a call adds depends on the pool. -/
theorem Instruction.growth_eq {i : Instruction} (h : ∀ k, i ≠ .invokespecial k)
    (p q : ConstantPool) : i.growth p = i.growth q := by
  cases i
  case invokespecial k => exact absurd rfl (h k)
  all_goals rfl

/-- What pushes a constant is no call. -/
theorem Instruction.growth_eq_of_pushed? {p : ConstantPool} {i : Instruction} {k : StackType}
    (h : i.pushed? p = some k) (q : ConstantPool) : i.growth q = i.growth p := by
  refine growth_eq ?_ q p
  rintro index rfl
  cases h

/-- A constructor that was found pops as much in a larger pool. -/
theorem Constructs.growth_eq {q r : ConstantPool} {made constructor : UInt16}
    {descriptor : String} (h : Constructs q made constructor descriptor) (hr : Grown q r) :
    (Instruction.invokespecial constructor).growth r =
      (Instruction.invokespecial constructor).growth q := by
  have hlater := hr.methodDescriptor?_eq_some h.methodDescriptor?
  rw [Instruction.growth, Instruction.growth, hlater, h.methodDescriptor?]

/-- Returning a value does not depend on the pool. -/
theorem JavaType.growth_returnInstruction (t : JavaType) (p q : ConstantPool) :
    t.returnInstruction.growth p = t.returnInstruction.growth q := by
  cases t <;> rfl

/-- The instructions of a body add the same in every later pool. -/
theorem Body.growth_eq {q r : ConstantPool} {t : JavaType} {is : List Instruction}
    (h : Body q t is) (hr : Grown q r) : ∀ i ∈ is, i.growth r = i.growth q := by
  cases h with
  | leave ht =>
    intro i hi
    rw [List.mem_singleton.mp hi]
    rfl
  | give hload ht =>
    have hpush := Instruction.growth_eq_of_pushed? hload r
    simpa only [List.forall_mem_cons] using
      ⟨hpush, t.growth_returnInstruction r q, List.forall_mem_nil _⟩
  | throwPlain h =>
    simpa only [List.forall_mem_cons] using
      ⟨rfl, rfl, h.growth_eq hr, rfl, List.forall_mem_nil _⟩
  | throwMessage h hload =>
    have hpush := Instruction.growth_eq_of_pushed? hload r
    simpa only [List.forall_mem_cons] using
      ⟨rfl, rfl, hpush, h.growth_eq hr, rfl, List.forall_mem_nil _⟩

/-- A body takes as much of the stack in every later pool. -/
theorem Body.maxStack_eq {q r : ConstantPool} {t : JavaType} {is : List Instruction}
    (h : Body q t is) (hr : Grown q r) : maxStack r is = maxStack q is := by
  have hsame : is.map (·.growth r) = is.map (·.growth q) := List.map_congr_left (h.growth_eq hr)
  have hfold (p : ConstantPool) : is.foldl (fun u i => u.grow (i.growth p)) StackUse.empty =
      (is.map (·.growth p)).foldl StackUse.grow StackUse.empty := List.foldl_map.symm
  rw [maxStack, maxStack, hfold r, hfold q, hsame]

/-- A source text compiles to the same code in every later pool, and adds nothing to it. -/
theorem compile_again {method : MethodContext} {source : String} {p q r : ConstantPool}
    {g : GeneratedCode} (hp : p.slots.length ≤ 65535)
    (h : outcome (compile method source) p = (.ok g, q)) (hr : Grown q r) :
    outcome (compile method source) r = (.ok g, r) := by
  have hq := (compile_grown h).length_le hp
  -- the pool is asked for constants that it has, so it answers as before and stays as it is
  obtain ⟨type, statements, htype, hparse, hbody, hstack, hlocals⟩ := compile_eq_ok.mp h
  have hgenerates := bodyCode_generates type.returned statements
  have hsame : g.maxStack = maxStack r g.instructions := by
    rw [hstack, (hgenerates.body hbody hq).maxStack_eq hr]
  exact compile_eq_ok.mpr
    ⟨type, statements, htype, hparse, hgenerates.stable.again hbody hr, hsame, hlocals⟩

/-! ### Bodies and methods -/

/-- A body that holds the code is renewed to itself. -/
theorem MethodBody.Holds.renewed_eq {b : MethodBody} {p : ConstantPool} {g : GeneratedCode}
    {old : List Attribute} (h : b.Holds p g old) : b.renewed p g = b := by
  have hnew := b.renewed_holds p g
  have hattributes : (b.renewed p g).attributes = b.attributes := by
    rw [hnew.attributes, h.attributes, List.filter_filter]
    simp only [Bool.and_self]
  -- both have the same code, and no attribute that was kept goes
  show MethodBody.mk _ _ _ _ (b.renewed p g).attributes = b
  rw [hattributes, ← h.maxStack, ← h.maxLocals, ← h.code, ← h.handlers]

/-- A body in its own place changes nothing, not even the flags. -/
theorem Member.withBody_eq {m : Member} {p : ConstantPool} {front back : List Attribute}
    {code : Attribute} (hattributes : m.attributes = front ++ code :: back)
    (hfirst : ∀ x ∈ front, x.name? p ≠ some MethodBody.attributeName)
    (hname : code.name? p = some MethodBody.attributeName) :
    m.withBody (m.bodyPosition? p) code = m := by
  have hset : m.attributes.set front.length code = m.attributes := by
    simp [hattributes]
  rw [bodyPosition?_eq_length hattributes hfirst hname]
  show { m with attributes := m.attributes.set front.length code } = m
  rw [hset]

/-- Losing the flags of a method without a body does not make a method static. -/
theorem Member.Rebodied.isStatic_eq {m new : Member} {p : ConstantPool} {code : Attribute}
    {old : List Attribute} (h : m.Rebodied p code old new) : new.isStatic = m.isStatic := by
  cases h with
  | replaced => rfl
  | appended =>
    have hstatic : ~~~(abstractFlag ||| nativeFlag) &&& staticFlag = staticFlag := by decide
    rw [Member.isStatic, Member.isStatic, UInt16.and_assoc, hstatic]

/-! ### Classes -/

/-- Counts that are set to the lengths of the lists are the lengths of the lists. -/
theorem ClassFile.synchronised_synchronised (c : ClassFile) :
    c.synchronised.synchronised = c.synchronised := by
  have hmembers (ms : List Member) :
      (ms.map Member.synchronised).map Member.synchronised = ms.map Member.synchronised := by
    rw [List.map_map]
    rfl
  simp only [synchronised, hmembers, List.length_map]

namespace Rework

variable {c : ClassFile} (r : Rework c)

/-- Setting the stored count does not change what the pool holds. -/
theorem grown_result (hpool : c.pool.slots.length ≤ 65534) : Grown r.pool r.result.pool where
  appended := ⟨[], (List.append_nil _).symm⟩
  laidOut := id
  room := .inr ⟨r.isCounted_pool_iff.mpr hpool, r.length_pool_le_iff.mpr hpool⟩

/-- The same code put into the result once more changes nothing. -/
theorem withCode_result (hc : c.ListsCounted)
    (hcode : (Instruction.encodeAll r.generated.instructions).length ≤ 65535) :
    r.result.withCode r.position r.new.synchronised r.nameIndex r.generated = .ok r.result := by
  obtain ⟨front, back, hattributes, hfirst⟩ := r.rebodied.attributes_new
  have hbody : r.body.renewed r.result.pool r.generated = r.body := r.holds_result.renewed_eq
  have hmethod : r.new.synchronised.withBody (r.new.synchronised.bodyPosition? r.result.pool)
      r.code = r.new.synchronised := Member.withBody_eq hattributes hfirst r.named
  obtain ⟨hlt, hget⟩ := List.getElem?_eq_some_iff.mp (r.getElem?_result hc)
  have hmethods : r.result.methods.set r.position r.new.synchronised = r.result.methods := by
    rw [← hget, List.set_getElem_self]
  refine ClassFile.withCode_eq_ok.mpr ⟨r.body, r.body_result hcode, ?_⟩
  rw [hbody]
  show r.result = { r.result with
    methods := r.result.methods.set r.position (r.new.synchronised.withBody
      (r.new.synchronised.bodyPosition? r.result.pool) r.code) }.synchronised
  rw [hmethod, hmethods]
  exact (ClassFile.synchronised_synchronised _).symm

/-- A class that has been patched is patched to itself. -/
theorem patch_write {name descriptor source : String} {mid : ConstantPool} {out : Bytes}
    (hc : c.IsReadable) (hinside : c.NamesInside) (hfits : r.Fits)
    (hposition : c.findMethod name descriptor = some r.position)
    (hcompile : outcome (compile ⟨name, descriptor, r.method.isStatic⟩ source) c.pool =
      (.ok r.generated, mid))
    (hname : outcome (utf8 MethodBody.attributeName) mid = (.ok r.nameIndex, r.pool))
    (hcode : (Instruction.encodeAll r.generated.instructions).length ≤ 65535)
    (hparse : ClassFile.parse out = .ok r.result) (hwrite : r.result.toBytes = .ok out) :
    patch compile out name descriptor source = .ok out := by
  -- the pool of the result has grown from both pools that the first pass left
  have hlater : Grown r.pool r.result.pool := r.grown_result hfits.pool
  have hmid : Grown mid r.result.pool := ((Stable.utf8 _).grown hname).trans hlater
  have hagain := compile_again hc.pool.length_le hcompile hmid
  have hstatic : r.new.synchronised.isStatic = r.method.isStatic := r.rebodied.isStatic_eq
  have hrun : outcome
      (Defuse.generated compile ⟨name, descriptor, r.new.synchronised.isStatic⟩ source)
      r.result.pool = (.ok (r.generated, r.nameIndex), r.result.pool) := by
    rw [hstatic]
    exact generated_eq_ok.mpr ⟨_, hagain, (Stable.utf8 _).again hname hlater⟩
  have hfound : r.result.findMethod name descriptor = some r.position := by
    rw [r.findMethod_result hinside, hposition]
  obtain ⟨hwritable, rfl⟩ := ClassFile.toBytes_eq_ok.mp hwrite
  exact patch_eq_ok.mpr ⟨r.result, r.position, r.new.synchronised, r.generated, r.nameIndex,
    r.result.pool, r.result, hparse, hfound, r.getElem?_result hc.lists, hrun,
    r.withCode_result hc.lists hcode, hwritable, rfl⟩

end Rework

/-- **Patching again.** What patching a class yields, patched with the same source text once
more, stays as it is, byte for byte. -/
theorem patch_idempotent {bytes out : Bytes} {name descriptor source : String} {c : ClassFile}
    {position : Nat} {method : Member} (hsize : bytes.length < 2 ^ 31)
    (hparse : ClassFile.parse bytes = .ok c) (hcounted : c.pool.IsCounted)
    (hinside : c.NamesInside) (hposition : c.findMethod name descriptor = some position)
    (hmethod : c.methods[position]? = some method) (hroom : method.attributes.length < 65535)
    (h : patch compile bytes name descriptor source = .ok out) :
    patch compile out name descriptor source = .ok out := by
  obtain ⟨r, mid, rfl, rfl, hfits, hcompile, hname, hcode, hout, hwrite⟩ :=
    patch_result hsize hparse hcounted hposition hmethod hroom h
  obtain ⟨rest, hreadable, -⟩ := ClassFile.parse_eq_ok.mp hparse
  exact r.patch_write hreadable hinside hfits hposition hcompile hname hcode hout hwrite

/-! ### A class with an abstract method -/

/-- A class whose method has no body.  The name of the method is in its pool twice, and the
second one is the text of a string. -/
def abstractClass : ClassFile :=
  { lookupClass with
    pool :=
      { storedSize := 7
        slots := lookupClass.pool.slots ++
          [.utf8 (Text.ModifiedUtf8.encode "lookup"), .string 5] }
    methods := [⟨Member.abstractFlag ||| 1, 1, 2, 0, []⟩] }

/-- The counts in the class of the example are right. -/
theorem abstractClass_isReadable : abstractClass.IsReadable where
  pool := { laidOut := rfl, fills := trivial, writable := by decide }
  lists :=
    { lookupClass_isReadable.lists with
      methods := by
        intro m hm
        rw [List.mem_singleton.mp hm]
        exact ⟨rfl, List.forall_mem_nil _⟩ }

theorem parse_abstractClass : ClassFile.parse abstractClass.write = .ok abstractClass :=
  abstractClass_isReadable.parse_write

theorem abstractClass_namesInside : abstractClass.NamesInside := by
  constructor <;> decide

theorem findMethod_abstractClass :
    abstractClass.findMethod "lookup" "(J)Ljava/lang/String;" = some 0 := by
  have hname : abstractClass.pool.text? 1 = some "lookup" := text?_of_at? rfl
  have hdescriptor : abstractClass.pool.text? 2 = some "(J)Ljava/lang/String;" := text?_of_at? rfl
  exact ClassFile.findMethod_single rfl hname hdescriptor

/-- The method of the example is patched to return a string, with a body that is made for it. -/
theorem patch_abstractClass :
    ∃ out, patch compile abstractClass.write "lookup" "(J)Ljava/lang/String;"
      (returnString "lookup") = .ok out := by
  have hplain : Scan.IsPlain "lookup".toList := by simp [Scan.IsPlain]
  have htype : MethodType.read "(J)Ljava/lang/String;" =
      some ⟨[.long], .reference "java/lang/String"⟩ := by decide +kernel
  have hmethod : abstractClass.methods[0]? = some ⟨Member.abstractFlag ||| 1, 1, 2, 0, []⟩ := rfl
  exact patch_returnString_total hplain (by decide) parse_abstractClass (by decide)
    abstractClass_namesInside findMethod_abstractClass hmethod htype rfl ⟨_, rfl⟩

/-- The body that the first pass adds to the method is found by the second one, and so is the
string that it adds to the pool. -/
theorem patch_idempotent_abstract :
    ∃ out, patch compile abstractClass.write "lookup" "(J)Ljava/lang/String;"
        (returnString "lookup") = .ok out ∧
      patch compile out "lookup" "(J)Ljava/lang/String;" (returnString "lookup") = .ok out := by
  obtain ⟨out, hout⟩ := patch_abstractClass
  have hlength : abstractClass.write.length < 2 ^ 31 := by
    have hlen : abstractClass.write.length = 102 := rfl
    omega
  have hcounted : abstractClass.pool.IsCounted := rfl
  have hmethod : abstractClass.methods[0]? = some ⟨Member.abstractFlag ||| 1, 1, 2, 0, []⟩ := rfl
  exact ⟨out, hout, patch_idempotent hlength parse_abstractClass hcounted
    abstractClass_namesInside findMethod_abstractClass hmethod (by decide) hout⟩

end Defuse
