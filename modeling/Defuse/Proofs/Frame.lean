import Mathlib.Data.List.Find
import Mathlib.Data.List.Flatten
import Defuse.Proofs.Replacement
import Defuse.Proofs.SourceText

namespace Defuse

open ConstantPool

/-!
# What patching leaves alone

* `ClassFile.NamesInside` — the names and descriptors of the methods, and the names of their
  attributes, are numbers inside the pool;
* `Rework.findMethod_result` — then every method is found where it was;
* `Rework.body_isReadable` — the new body is read back from the data of its attribute;
* `Rework.fits` — a class of fewer than two gigabytes leaves room for it;
* `patch_frame` — the class read back differs in the body, and in appended constants.
-/

/-! ### Names -/

/-- The names and descriptors of the methods, and the names of their attributes, are numbers
inside the pool. -/
structure ClassFile.NamesInside (c : ClassFile) : Prop where
  name : ∀ m ∈ c.methods, m.nameIndex.toNat ≤ c.pool.slots.length
  descriptor : ∀ m ∈ c.methods, m.descriptorIndex.toNat ≤ c.pool.slots.length
  attributes : ∀ m ∈ c.methods, ∀ a ∈ m.attributes, a.nameIndex.toNat ≤ c.pool.slots.length

/-- A method with a new body has the name and the descriptor it had. -/
theorem Member.Rebodied.isNamed {m new : Member} {p : ConstantPool} {code : Attribute}
    {old : List Attribute} (h : m.Rebodied p code old new) (q : ConstantPool)
    (name descriptor : String) :
    new.isNamed q name descriptor = m.isNamed q name descriptor := by
  cases h <;> rfl

/-- The body is the same in two pools in which the attributes have the same names. -/
theorem Member.Rebodied.congr {m new : Member} {p q : ConstantPool} {code : Attribute}
    {old : List Attribute} (hnames : ∀ a ∈ m.attributes, a.name? p = a.name? q)
    (h : m.Rebodied p code old new) : m.Rebodied q code old new := by
  cases h with
  | @replaced front back a b hattributes hfirst hname hbody =>
    have hmem (x : Attribute) (hx : x ∈ front ∨ x = a) : x ∈ m.attributes := by
      rw [hattributes, List.mem_append, List.mem_cons]
      exact hx.imp_right .inl
    refine .replaced hattributes ?_ ?_ hbody
    · intro x hx
      rw [← hnames x (hmem x (.inl hx))]
      exact hfirst x hx
    · rw [← hnames a (hmem a (.inr rfl))]
      exact hname
  | appended hnone =>
    refine .appended fun x hx => ?_
    rw [← hnames x hx]
    exact hnone x hx

/-- A search depends only on which items have the property. -/
theorem findIdx?_eq_of_map {α : Type} {f g : α → Bool} {l k : List α} (h : l.map f = k.map g) :
    l.findIdx? f = k.findIdx? g := by
  have hl : (l.map f).findIdx? id = l.findIdx? f := List.findIdx?_map
  have hk : (k.map g).findIdx? id = k.findIdx? g := List.findIdx?_map
  rw [← hl, h, hk]

/-- The old body is the same in two pools in which the attributes have the same names. -/
theorem Member.body_congr {m : Member} {p q : ConstantPool}
    (hnames : ∀ a ∈ m.attributes, a.name? p = a.name? q) : m.body p = m.body q := by
  have hfind : m.attributes.find? (fun a => a.name? p = some MethodBody.attributeName) =
      m.attributes.find? (fun a => a.name? q = some MethodBody.attributeName) := by
    apply List.find?_congr
    intro a ha
    rw [hnames a ha]
  rw [body, body, hfind]

/-- The old body stays the same in a larger pool if the attributes have their names inside the
pool. -/
theorem Member.body_grown {m : Member} {p q : ConstantPool} (h : Grown p q)
    (hinside : ∀ a ∈ m.attributes, a.nameIndex.toNat ≤ p.slots.length) : m.body q = m.body p :=
  body_congr fun a ha => h.text?_eq (hinside a ha)

/-- The body of a method with a new body is the new one. -/
theorem Member.Rebodied.body_new {m new : Member} {p : ConstantPool} {code : Attribute}
    {old : List Attribute} (h : m.Rebodied p code old new)
    (hname : code.name? p = some MethodBody.attributeName) :
    new.body p = MethodBody.parse code.info := by
  obtain ⟨front, back, hattributes, hfirst⟩ := h.attributes_new
  have hfind : new.attributes.find? (fun a => a.name? p = some MethodBody.attributeName) =
      some code := by
    rw [hattributes]
    refine List.find?_eq_some_iff_append.mpr ⟨by simpa using hname, front, back, rfl, ?_⟩
    simpa using hfirst
  rw [body, hfind]

namespace Rework

variable {c : ClassFile} (r : Rework c)

/-- Every method is found where it was. -/
theorem findMethod_result (hinside : c.NamesInside) (name descriptor : String) :
    r.result.findMethod name descriptor = c.findMethod name descriptor := by
  have hsame : ∀ m ∈ c.methods,
      m.isNamed r.result.pool name descriptor = m.isNamed c.pool name descriptor := by
    intro m hm
    have hname : r.result.pool.text? m.nameIndex = c.pool.text? m.nameIndex :=
      r.grown.text?_eq (hinside.name m hm)
    have hdescriptor : r.result.pool.text? m.descriptorIndex = c.pool.text? m.descriptorIndex :=
      r.grown.text?_eq (hinside.descriptor m hm)
    rw [Member.isNamed, Member.isNamed, hname, hdescriptor]
  have hmap : c.methods.map (·.isNamed r.result.pool name descriptor) =
      c.methods.map (·.isNamed c.pool name descriptor) := List.map_congr_left hsame
  have hold : (c.methods.map (·.isNamed r.result.pool name descriptor))[r.position]? =
      some (r.new.isNamed r.result.pool name descriptor) := by
    rw [List.getElem?_map, r.isMethod, r.rebodied.isNamed]
    rfl
  -- the new method has the name of the one that it stands for
  apply findIdx?_eq_of_map
  show ((c.methods.set r.position r.new).map Member.synchronised).map _ = _
  rw [List.map_map]
  show (c.methods.set r.position r.new).map (·.isNamed r.result.pool name descriptor) = _
  rw [List.map_set, ← hmap]
  obtain ⟨hlt, heq⟩ := List.getElem?_eq_some_iff.mp hold
  rw [← heq, List.set_getElem_self]

/-- In the pool of the class too, the first body is the one that is replaced. -/
theorem rebodied_inside (hinside : c.NamesInside) :
    r.method.Rebodied c.pool r.code r.old r.new := by
  refine r.rebodied.congr fun a ha => ?_
  exact r.grown.text?_eq (hinside.attributes _ r.method_mem a ha)

end Rework

/-! ### The new body -/

/-- One item takes no more bytes than all. -/
theorem length_le_flatMap {α : Type} {w : α → Bytes} {a : α} {as : List α} (h : a ∈ as) :
    (w a).length ≤ (as.flatMap w).length :=
  ((List.singleton_sublist.mpr h).flatMap w).length_le.trans' (by simp)

/-- The attributes of the old body can be counted, and take no more bytes than those of the
method. -/
theorem Member.Rebodied.old_counted {m new : Member} {p : ConstantPool} {code : Attribute}
    {old : List Attribute} (h : m.Rebodied p code old new) :
    (∀ a ∈ old, a.IsCounted) ∧ old.length < 2 ^ 16 ∧
      (old.flatMap Attribute.write).length ≤ (m.attributes.flatMap Attribute.write).length := by
  cases h with
  | appended hnone => exact ⟨by simp, by decide, by simp⟩
  | @replaced front back a b hattributes hfirst hname hbody =>
    obtain ⟨rest, hreadable, hinfo⟩ := MethodBody.parse_eq_ok.mp hbody
    refine ⟨hreadable.attributes, hreadable.count, ?_⟩
    have hmem : a ∈ m.attributes := by simp [hattributes]
    -- the attributes of the old body stand in the data of an attribute of the method
    have hle : a.write.length ≤ _ := length_le_flatMap (w := Attribute.write) hmem
    rw [Attribute.length_write, hinfo, List.length_append, MethodBody.length_write] at hle
    omega

namespace Rework

variable {c : ClassFile} (r : Rework c)

/-- A body whose code is short is read back from the data of its attribute. -/
theorem body_isReadable (hcode : (Instruction.encodeAll r.generated.instructions).length ≤ 65535) :
    r.body.IsReadable := by
  obtain ⟨hcounted, hcount, -⟩ := r.rebodied.old_counted
  refine ⟨?_, ?_, ?_, ?_⟩
  · rw [r.holds.code]
    omega
  · rw [r.holds.handlers]
    decide
  · have hle := List.length_filter_le
      (fun a => decide (∀ name ∈ MethodBody.positional, a.name? r.pool ≠ some name)) r.old
    rw [r.holds.attributes]
    omega
  · intro a ha
    rw [r.holds.attributes] at ha
    exact hcounted a (List.mem_filter.mp ha |>.1)

/-- The method with the new body stands where the old one did. -/
theorem getElem?_result (hc : c.ListsCounted) :
    r.result.methods[r.position]? = some r.new.synchronised := by
  rw [r.result_eq hc]
  exact List.getElem?_set_self r.position_lt

/-- The new body is read back. -/
theorem body_result (hcode : (Instruction.encodeAll r.generated.instructions).length ≤ 65535) :
    r.new.synchronised.body r.result.pool = .ok r.body := by
  have hbody : r.new.body r.pool = MethodBody.parse r.body.write := r.rebodied.body_new r.named
  show r.new.body r.pool = _
  rw [hbody, MethodBody.parse_eq_ok]
  exact ⟨[], r.body_isReadable hcode, (List.append_nil _).symm⟩

/-- A class takes more bytes than the attributes of one of its methods. -/
theorem length_attributes_le :
    (r.method.attributes.flatMap Attribute.write).length ≤ c.write.length := by
  have hmethod : r.method.write.length ≤ _ := length_le_flatMap (w := Member.write) r.method_mem
  rw [Member.write, List.length_append] at hmethod
  simp only [ClassFile.write, List.length_append]
  omega

/-- The new body of a class of fewer than two gigabytes can be counted. -/
theorem length_body_lt (hcode : (Instruction.encodeAll r.generated.instructions).length ≤ 65535)
    (hsize : c.write.length < 2 ^ 31) : r.body.write.length < 2 ^ 32 := by
  obtain ⟨-, -, hold⟩ := r.rebodied.old_counted
  have hattributes := r.length_attributes_le
  have hfilter := ((List.filter_sublist (l := r.old) (p := fun a =>
    ∀ name ∈ MethodBody.positional, a.name? r.pool ≠ some name)).flatMap Attribute.write).length_le
  rw [MethodBody.length_write, r.holds.code, r.holds.handlers, r.holds.attributes,
    List.length_nil]
  omega

/-- A class of fewer than two gigabytes leaves room for the new body if its pool is counted and
the method has fewer than the greatest number of attributes. -/
theorem fits (hcode : (Instruction.encodeAll r.generated.instructions).length ≤ 65535)
    (hsize : c.write.length < 2 ^ 31) (hcounted : c.pool.IsCounted)
    (hroom : r.method.attributes.length < 65535) : r.Fits where
  pool := by
    have hlt := c.pool.storedSize.toNat_lt
    rw [hcounted] at hlt
    omega
  attributes := .inl hroom
  info := r.length_body_lt hcode hsize

end Rework

/-! ### The frame -/

/-- A class differs from another one in the body of one method, which holds generated code, and
in constants that are appended to its pool. -/
structure ClassFile.DiffersIn (c d : ClassFile) (position : Nat) (method : Member)
    (g : GeneratedCode) : Prop where
  pool : ∃ added, d.pool.slots = c.pool.slots ++ added
  method : ∃ code old new body,
    d = { c with pool := d.pool, methods := c.methods.set position new.synchronised } ∧
    method.Rebodied c.pool code old new ∧ code.name? d.pool = some MethodBody.attributeName ∧
    MethodBody.read code.info = .ok (body, []) ∧ body.Holds d.pool g old

/-- Names do not depend on the stored count. -/
theorem Rework.holds_result {c : ClassFile} (r : Rework c) :
    r.body.Holds r.result.pool r.generated r.old :=
  ⟨r.holds.maxStack, r.holds.maxLocals, r.holds.code, r.holds.handlers, r.holds.attributes⟩

/-- A class with a new body differs from the class that it was in that body only, once the code is
short enough to be read back. -/
theorem Rework.differsIn {c : ClassFile} (r : Rework c) (hc : c.IsReadable)
    (hinside : c.NamesInside)
    (hcode : (Instruction.encodeAll r.generated.instructions).length ≤ 65535) :
    c.DiffersIn r.result r.position r.method r.generated where
  pool := r.grown.appended
  method := by
    have hread := MethodBody.read_undoes.read_all (r.body_isReadable hcode)
    exact ⟨r.code, r.old, r.new, r.body, r.result_eq hc.lists, r.rebodied_inside hinside, r.named,
      hread, r.holds_result⟩

/-- The class that is read back from the bytes that patching yields, and how it was made. -/
theorem patch_result {bytes out : Bytes} {name descriptor source : String} {c : ClassFile}
    {position : Nat} {method : Member} (hsize : bytes.length < 2 ^ 31)
    (hparse : ClassFile.parse bytes = .ok c) (hcounted : c.pool.IsCounted)
    (hposition : c.findMethod name descriptor = some position)
    (hmethod : c.methods[position]? = some method) (hroom : method.attributes.length < 65535)
    (h : patch compile bytes name descriptor source = .ok out) :
    ∃ r : Rework c, ∃ mid, r.position = position ∧ r.method = method ∧ r.Fits ∧
      outcome (compile ⟨name, descriptor, method.isStatic⟩ source) c.pool =
        (.ok r.generated, mid) ∧
      outcome (utf8 MethodBody.attributeName) mid = (.ok r.nameIndex, r.pool) ∧
      (Instruction.encodeAll r.generated.instructions).length ≤ 65535 ∧
      ClassFile.parse out = .ok r.result ∧ r.result.toBytes = .ok out := by
  obtain ⟨c', r, mid, hparse', hposition', hcompile, hname, hwritable, rfl⟩ := patch_ok h
  -- the class and the method are those that are given
  obtain rfl : c = c' := by
    rw [hparse] at hparse'
    exact Except.ok.inj hparse'
  obtain rfl : r.position = position := by
    rw [hposition] at hposition'
    exact (Option.some.inj hposition').symm
  obtain rfl : r.method = method := by
    have hsame := r.isMethod
    rw [hmethod] at hsame
    exact (Option.some.inj hsame).symm
  obtain ⟨rest, hreadable, hbytes⟩ := ClassFile.parse_eq_ok.mp hparse
  have hlen : c.write.length < 2 ^ 31 := by
    rw [hbytes, List.length_append] at hsize
    omega
  have hcode := length_code_le hreadable.pool.length_le hcompile
  have hfits := r.fits hcode hlen hcounted hroom
  have hread := r.read_write hreadable hfits hwritable
  refine ⟨r, mid, rfl, rfl, hfits, hcompile, hname, hcode, ?_, ?_⟩
  · rw [ClassFile.parse, hread]
  · exact ClassFile.toBytes_eq_ok.mpr ⟨hwritable, rfl⟩

/-- What is read back from the bytes that patching yields. -/
theorem patch_read {bytes out : Bytes} {name descriptor source : String} {c : ClassFile}
    {position : Nat} {method : Member} (hsize : bytes.length < 2 ^ 31)
    (hparse : ClassFile.parse bytes = .ok c) (hcounted : c.pool.IsCounted)
    (hposition : c.findMethod name descriptor = some position)
    (hmethod : c.methods[position]? = some method) (hroom : method.attributes.length < 65535)
    (h : patch compile bytes name descriptor source = .ok out) :
    ∃ r : Rework c, ∃ mid, r.position = position ∧ r.method = method ∧
      outcome (compile ⟨name, descriptor, method.isStatic⟩ source) c.pool =
        (.ok r.generated, mid) ∧ Grown mid r.pool ∧
      (Instruction.encodeAll r.generated.instructions).length ≤ 65535 ∧
      ClassFile.parse out = .ok r.result := by
  obtain ⟨r, mid, hposition, hmethod, -, hcompile, hname, hcode, hout, -⟩ :=
    patch_result hsize hparse hcounted hposition hmethod hroom h
  exact ⟨r, mid, hposition, hmethod, hcompile, (Stable.utf8 _).grown hname, hcode, hout⟩

/-- **Frame of a patch.** The bytes that patching yields are those of a class that differs from
the one that was read in the body of the method, which is found where it was, and in constants
appended to the pool. -/
theorem patch_frame {bytes out : Bytes} {name descriptor source : String} {c : ClassFile}
    {position : Nat} {method : Member} (hsize : bytes.length < 2 ^ 31)
    (hparse : ClassFile.parse bytes = .ok c) (hcounted : c.pool.IsCounted)
    (hinside : c.NamesInside) (hposition : c.findMethod name descriptor = some position)
    (hmethod : c.methods[position]? = some method) (hroom : method.attributes.length < 65535)
    (h : patch compile bytes name descriptor source = .ok out) :
    ∃ d g q, ClassFile.parse out = .ok d ∧ d.findMethod name descriptor = some position ∧
      (compile ⟨name, descriptor, method.isStatic⟩ source).run.run c.pool = (.ok g, q) ∧
      c.DiffersIn d position method g := by
  obtain ⟨r, mid, rfl, rfl, hcompile, -, hcode, hout⟩ :=
    patch_read hsize hparse hcounted hposition hmethod hroom h
  obtain ⟨rest, hreadable, -⟩ := ClassFile.parse_eq_ok.mp hparse
  have hfound : r.result.findMethod name descriptor = some r.position := by
    rw [r.findMethod_result hinside, hposition]
  exact ⟨r.result, r.generated, mid, hout, hfound, hcompile,
    r.differsIn hreadable hinside hcode⟩

/-! ### A class with a method that looks a name up -/

/-- A body with an exception handler, and with an attribute that refers to its code. -/
def lookupBody : MethodBody where
  maxStack := 4
  maxLocals := 3
  code := Instruction.encodeAll [.aload1, .areturn]
  handlers := [⟨0, 1, 1, 0⟩]
  attributes := [.create 4 [0, 0]]

/-- The method with this body. -/
def lookupMethod : Member := ⟨0x0001, 1, 2, 1, [.create 3 lookupBody.write]⟩

/-- A class with this method. -/
def lookupClass : ClassFile where
  minor := 0
  major := 52
  pool :=
    { storedSize := 5
      slots := [.utf8 (Text.ModifiedUtf8.encode "lookup"),
        .utf8 (Text.ModifiedUtf8.encode "(J)Ljava/lang/String;"),
        .utf8 (Text.ModifiedUtf8.encode MethodBody.attributeName),
        .utf8 (Text.ModifiedUtf8.encode "LineNumberTable")] }
  flags := 0x0021
  thisClass := 0
  superClass := 0
  interfacesCount := 0
  interfaces := []
  fieldsCount := 0
  fields := []
  methodsCount := 1
  methods := [lookupMethod]
  attributesCount := 0
  attributes := []

/-- The counts and lengths in the class of the example are right. -/
theorem lookupClass_isReadable : lookupClass.IsReadable where
  pool := { laidOut := rfl, fills := trivial, writable := by decide }
  lists :=
    { interfaces := rfl
      fieldsCount := rfl
      fields := by simp [lookupClass]
      methodsCount := rfl
      methods := by
        intro m hm
        rw [List.mem_singleton.mp hm]
        refine ⟨rfl, ?_⟩
        intro a ha
        rw [List.mem_singleton.mp ha]
        rfl
      attributesCount := rfl
      attributes := by simp [lookupClass] }

theorem parse_lookupClass : ClassFile.parse lookupClass.write = .ok lookupClass :=
  lookupClass_isReadable.parse_write

theorem length_lookupClass : lookupClass.write.length < 2 ^ 31 := by
  have hlen : lookupClass.write.length = 126 := rfl
  omega

theorem lookupClass_namesInside : lookupClass.NamesInside := by
  constructor <;> decide

/-- The method of the example is found under its name and descriptor. -/
theorem findMethod_lookupClass :
    lookupClass.findMethod "lookup" "(J)Ljava/lang/String;" = some 0 := by
  have hname : lookupClass.pool.text? 1 = some "lookup" := text?_of_at? rfl
  have hdescriptor : lookupClass.pool.text? 2 = some "(J)Ljava/lang/String;" := text?_of_at? rfl
  exact ClassFile.findMethod_single rfl hname hdescriptor

theorem body_lookupMethod : lookupMethod.body lookupClass.pool = .ok lookupBody := rfl

open Scan in
/-- The source text of the example, token by token. -/
theorem parseBody_returnNull : parseBody "return null;" = .ok [.return (some .null)] := by
  have hchars : "return null;".toList =
      ['r', 'e', 't', 'u', 'r', 'n', ' ', 'n', 'u', 'l', 'l', ';'] := by
    simp
  rw [parseBody, tokenize, hchars]
  iterate 3 rw [tokensOnto_token rfl rfl]
  rw [tokensOnto_end rfl]
  rfl

/-- The method of the example is patched: nothing that it needs is missing from the pool. -/
theorem patch_lookupClass :
    ∃ out, patch compile lookupClass.write "lookup" "(J)Ljava/lang/String;" "return null;" =
      .ok out := by
  have htype : MethodType.read "(J)Ljava/lang/String;" =
      some ⟨[.long], .reference "java/lang/String"⟩ := by decide +kernel
  have hcompile : outcome (compile ⟨"lookup", "(J)Ljava/lang/String;", false⟩ "return null;")
      lookupClass.pool = (.ok ⟨[.aconstNull, .areturn], 1, 3⟩, lookupClass.pool) :=
    compile_eq_ok.mpr ⟨_, _, htype, parseBody_returnNull, rfl, rfl, rfl⟩
  have hfind : lookupClass.pool.find? (.utf8 (Text.ModifiedUtf8.encode MethodBody.attributeName)) =
      some 3 := by decide
  have hrun := generated_eq_ok.mpr ⟨_, hcompile, utf8_of_find? hfind⟩
  have hmethod : lookupClass.methods[0]? = some lookupMethod := rfl
  exact patch_total parse_lookupClass findMethod_lookupClass hmethod hrun body_lookupMethod
    lookupClass_isReadable.pool.writable

/-- The method looks nothing up any more, and all else of the class is as it was. -/
theorem patch_frame_lookup :
    ∃ out, patch compile lookupClass.write "lookup" "(J)Ljava/lang/String;" "return null;" =
        .ok out ∧
      ∃ d g q, ClassFile.parse out = .ok d ∧
        d.findMethod "lookup" "(J)Ljava/lang/String;" = some 0 ∧
        (compile ⟨"lookup", "(J)Ljava/lang/String;", lookupMethod.isStatic⟩ "return null;").run.run
          lookupClass.pool = (.ok g, q) ∧
        lookupClass.DiffersIn d 0 lookupMethod g := by
  obtain ⟨out, hout⟩ := patch_lookupClass
  have hcounted : lookupClass.pool.IsCounted := rfl
  have hmethod : lookupClass.methods[0]? = some lookupMethod := rfl
  have hroom : lookupMethod.attributes.length < 65535 := by decide
  exact ⟨out, hout, patch_frame length_lookupClass parse_lookupClass hcounted
    lookupClass_namesInside findMethod_lookupClass hmethod hroom hout⟩

end Defuse
