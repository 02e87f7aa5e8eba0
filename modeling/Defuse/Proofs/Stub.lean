import Defuse.Proofs.Descriptors
import Defuse.Proofs.Frame
import Defuse.Proofs.Writability

namespace Defuse

open ConstantPool Scan

/-!
# Methods that return a text

* `compile_returnString` — the code of a source text that returns a plain text, in a pool with
  room for it;
* `patch_returnString_total` — a class with room for it can be patched with it;
* `stub_of_patch` — the method that is read back loads the text and returns it;
* `patch_of_unread` — no class can, if the descriptor of the method is not read;
* `patch_returnString` — the first of these happens unless a class among the parameters has a
  closing parenthesis in its name, and then the second;
* `patch_returnString_parenthesis` — a class where this goes wrong.
-/

/-! ### Code -/

/-- In a pool with room for two more constants, a short text is loaded. -/
theorem loadString_total {text : String} {p : ConstantPool}
    (hroom : p.slots.length + 2 ≤ maxIndex)
    (htext : (Text.ModifiedUtf8.encode text).length ≤ 65535) (hp : p.isWritable = true) :
    ∃ i n q, outcome (loadString text) p = (.ok (loadConstant i), q) ∧
      q.at? i = some (.string n) ∧ q.text? n = some text ∧
      q.slots.length ≤ p.slots.length + 2 ∧ q.isWritable = true := by
  obtain ⟨i, q, hrun, hlen⟩ := FitsIn.string text p hroom
  have hwritable : q.isWritable = true :=
    (WritableIff.string text p q i hrun).mpr ⟨hp, htext⟩
  have hbound : q.slots.length ≤ 65535 := by
    simp only [maxIndex] at hroom
    omega
  obtain ⟨n, hi, hn⟩ := at?_string hrun hbound
  refine ⟨i, n, q, ?_, hi, hn, hlen, hwritable⟩
  rw [loadString, if_neg (Nat.not_lt.mpr htext), outcome_bind, outcome_compile.mpr hrun]
  rfl

/-- A constant is loaded by its number, which takes one byte or two. -/
theorem loadConstant_cases (i : UInt16) :
    (∃ k : UInt8, loadConstant i = .ldc k ∧ k.toUInt16 = i) ∨ loadConstant i = .ldcW i := by
  unfold loadConstant
  split
  · next hsmall => exact .inl ⟨i.toUInt8, rfl, toUInt8_toUInt16 hsmall⟩
  · exact .inr rfl

/-- A constant that is loaded and returned takes one slot. -/
theorem maxStack_loadConstant (p : ConstantPool) (i : UInt16) :
    maxStack p [loadConstant i, .areturn] = 1 := by
  unfold loadConstant
  split <;> rfl

/-- The code that returns a plain text. -/
theorem compile_returnString {text descriptor : String} {type : MethodType} {p : ConstantPool}
    (hplain : IsPlain text.toList) (htext : (Text.ModifiedUtf8.encode text).length ≤ 65535)
    (htype : MethodType.read descriptor = some type)
    (hreturned : type.returned = .reference "java/lang/String")
    (hroom : p.slots.length + 2 ≤ maxIndex) (hp : p.isWritable = true) (name : String)
    (isStatic : Bool) :
    ∃ i n q, outcome (compile ⟨name, descriptor, isStatic⟩ (returnString text)) p =
        (.ok ⟨[loadConstant i, .areturn], 1, localSlots isStatic type⟩, q) ∧
      q.at? i = some (.string n) ∧ q.text? n = some text ∧
      q.slots.length ≤ p.slots.length + 2 ∧ q.isWritable = true := by
  obtain ⟨i, n, q, hload, hi, hn, hlen, hwritable⟩ := loadString_total hroom htext hp
  refine ⟨i, n, q, ?_, hi, hn, hlen, hwritable⟩
  have hbody : outcome (bodyCode type.returned [.return (some (.string text))]) p =
      (.ok [loadConstant i, .areturn], q) := by
    have hknown : stringTypes.contains "java/lang/String" = true := by decide
    rw [hreturned]
    simp only [bodyCode, Statement.code, reduceCtorEq, ↓reduceIte, Expression.value, outcome_bind,
      outcome_liftM, Value.loadAs, hknown, hload, outcome_pure]
  exact compile_eq_ok.mpr ⟨type, _, htype, parseBody_returnString hplain, hbody,
    (maxStack_loadConstant q i).symm, rfl⟩

/-! ### Classes -/

/-- A class with room for the text can be patched with the source text that returns it. -/
theorem patch_returnString_total {bytes : Bytes} {name descriptor text : String} {c : ClassFile}
    {position : Nat} {method : Member} {type : MethodType} (hplain : IsPlain text.toList)
    (htext : (Text.ModifiedUtf8.encode text).length ≤ 65535)
    (hparse : ClassFile.parse bytes = .ok c) (hroom : c.pool.slots.length ≤ 65531)
    (hinside : c.NamesInside) (hposition : c.findMethod name descriptor = some position)
    (hmethod : c.methods[position]? = some method)
    (htype : MethodType.read descriptor = some type)
    (hreturned : type.returned = .reference "java/lang/String")
    (hbody : ∃ b, method.body c.pool = .ok b) :
    ∃ out, patch compile bytes name descriptor (returnString text) = .ok out := by
  obtain ⟨rest, hreadable, -⟩ := ClassFile.parse_eq_ok.mp hparse
  obtain ⟨b, hb⟩ := hbody
  -- four slots are left, so the class has room for the string, for its text and for the name of the
  -- attribute
  obtain ⟨i, n, p₁, hcompile, -, -, hlen, hwritable⟩ := compile_returnString hplain htext htype
    hreturned (p := c.pool) (by simp only [maxIndex]; omega) hreadable.pool.writable name
    method.isStatic
  have hmore : p₁.slots.length + 1 ≤ maxIndex := by
    simp only [maxIndex]
    omega
  obtain ⟨nameIndex, q, hname, -⟩ := FitsIn.utf8 MethodBody.attributeName p₁ hmore
  have hfinal : q.isWritable = true :=
    (WritableIff.utf8 _ p₁ q nameIndex hname).mpr ⟨hwritable, MethodBody.isStorable_attributeName⟩
  have hrun := generated_eq_ok.mpr ⟨p₁, hcompile, hname⟩
  have hsame : method.body q = method.body c.pool :=
    Member.body_grown (generated_grown hrun) (hinside.attributes _ (List.mem_of_getElem? hmethod))
  exact patch_total hparse hposition hmethod hrun (hsame.trans hb) hfinal

/-- The method that is read back from a class patched so loads the text and returns it. -/
theorem stub_of_patch {bytes out : Bytes} {name descriptor text : String} {c : ClassFile}
    {position : Nat} {method : Member} {type : MethodType} (hplain : IsPlain text.toList)
    (htext : (Text.ModifiedUtf8.encode text).length ≤ 65535) (hsize : bytes.length < 2 ^ 31)
    (hparse : ClassFile.parse bytes = .ok c) (hcounted : c.pool.IsCounted)
    (hroom : c.pool.slots.length ≤ 65531) (hinside : c.NamesInside)
    (hposition : c.findMethod name descriptor = some position)
    (hmethod : c.methods[position]? = some method)
    (htype : MethodType.read descriptor = some type)
    (hreturned : type.returned = .reference "java/lang/String")
    (hattributes : method.attributes.length < 65535)
    (hpatch : patch compile bytes name descriptor (returnString text) = .ok out) :
    ∃ d stub body load i n,
      ClassFile.parse out = .ok d ∧ d.findMethod name descriptor = some position ∧
      d.methods[position]? = some stub ∧ stub.body d.pool = .ok body ∧
      Instruction.decodeAll body.code = .ok [load, .areturn] ∧
      ((∃ k : UInt8, load = .ldc k ∧ k.toUInt16 = i) ∨ load = .ldcW i) ∧
      d.pool.at? i = some (.string n) ∧ d.pool.text? n = some text ∧
      body.maxStack = 1 ∧
      body.maxLocals.toNat = min 65535 ((if method.isStatic then 0 else 1) +
        (type.parameters.map JavaType.slots).sum) ∧
      body.handlers = [] := by
  obtain ⟨r, mid, rfl, rfl, hcompile, hlater, hcode, hout⟩ :=
    patch_read hsize hparse hcounted hposition hmethod hattributes hpatch
  obtain ⟨rest, hreadable, -⟩ := ClassFile.parse_eq_ok.mp hparse
  obtain ⟨i, n, p₁, hstub, hi, hn, -, -⟩ := compile_returnString hplain htext htype hreturned
    (p := c.pool) (by simp only [maxIndex]; omega) hreadable.pool.writable name r.method.isStatic
  -- what is generated is the code of the source text, in the pool that it left
  obtain ⟨hgenerated, rfl⟩ : r.generated = ⟨[loadConstant i, .areturn], 1,
      localSlots r.method.isStatic type⟩ ∧ mid = p₁ := by
    have hsame := hcompile.symm.trans hstub
    simp only [Prod.mk.injEq, Except.ok.injEq] at hsame
    exact hsame
  have hfound : r.result.findMethod name descriptor = some r.position := by
    rw [r.findMethod_result hinside, hposition]
  refine ⟨r.result, r.new.synchronised, r.body, loadConstant i, i, n, hout, hfound,
    r.getElem?_result hreadable.lists, r.body_result hcode, ?_, loadConstant_cases i,
    hlater.at?_eq_some hi, hlater.text?_eq_some hn, ?_, ?_, r.holds.handlers⟩
  · rw [r.holds.code, hgenerated]
    exact Instruction.decodeAll_encodeAll _
  · rw [r.holds.maxStack, hgenerated]
  · rw [r.holds.maxLocals, hgenerated]
    exact toNat_localSlots r.method.isStatic type

/-- A class cannot be patched where the descriptor of the method is not read. -/
theorem patch_of_unread {bytes : Bytes} {name descriptor source : String} {c : ClassFile}
    {position : Nat} {method : Member} {statements : List Statement}
    (hparse : ClassFile.parse bytes = .ok c)
    (hposition : c.findMethod name descriptor = some position)
    (hmethod : c.methods[position]? = some method)
    (hunread : MethodType.read descriptor = none) (hbody : parseBody source = .ok statements) :
    patch compile bytes name descriptor source =
      .error (.compileFailed (.generation (.invalidDescriptor descriptor))) := by
  have hcompile : outcome (compile ⟨name, descriptor, method.isStatic⟩ source) c.pool =
      (.error (.generation (.invalidDescriptor descriptor)), c.pool) := by
    rw [compile, hbody, outcome_bind, outcome_liftM]
    simp only [generate, hunread]
    rfl
  rw [patch_of_found hparse hposition hmethod, generated, outcome_bind, hcompile]

/-- **A stub.** Let a class have room for a plain text, and a method with the descriptor of types
that returns a string.  If none of the parameters has a closing parenthesis in its descriptor, the
class can be patched with the source text that returns this text; the method that is read back loads
the text and returns it, and does nothing else.  If one has, the descriptor is taken for none, and
the class cannot be patched. -/
theorem patch_returnString {bytes : Bytes} {name descriptor text : String} {c : ClassFile}
    {position : Nat} {method : Member} {type : MethodType}
    (hplain : ∀ ch ∈ text.toList, ch ≠ '"' ∧ ch ≠ '\\' ∧ ch ≠ '\n')
    (htext : (Text.ModifiedUtf8.encode text).length ≤ 65535) (hsize : bytes.length < 2 ^ 31)
    (hparse : ClassFile.parse bytes = .ok c) (hcounted : c.pool.IsCounted)
    (hroom : c.pool.slots.length ≤ 65531) (hinside : c.NamesInside)
    (hposition : c.findMethod name descriptor = some position)
    (hmethod : c.methods[position]? = some method)
    (hspell : type.IsSpellable) (hdescriptor : descriptor.toList = type.descriptor)
    (hreturned : type.returned = .reference "java/lang/String")
    (hattributes : method.attributes.length < 65535)
    (hbody : ∃ b, method.body c.pool = .ok b) :
    ((∀ t ∈ type.parameters, ')' ∉ t.descriptor) →
      ∃ out d stub body load i n,
        patch compile bytes name descriptor ("return \"" ++ text ++ "\";") = .ok out ∧
        ClassFile.parse out = .ok d ∧ d.findMethod name descriptor = some position ∧
        d.methods[position]? = some stub ∧ stub.body d.pool = .ok body ∧
        Instruction.decodeAll body.code = .ok [load, .areturn] ∧
        ((∃ k : UInt8, load = .ldc k ∧ k.toUInt16 = i) ∨ load = .ldcW i) ∧
        d.pool.at? i = some (.string n) ∧ d.pool.text? n = some text ∧
        body.maxStack = 1 ∧
        body.maxLocals.toNat = min 65535 ((if method.isStatic then 0 else 1) +
          (type.parameters.map JavaType.slots).sum) ∧
        body.handlers = []) ∧
    ((∃ t ∈ type.parameters, ')' ∈ t.descriptor) →
      patch compile bytes name descriptor ("return \"" ++ text ++ "\";") =
        .error (.compileFailed (.generation (.invalidDescriptor descriptor)))) := by
  constructor
  · intro hclosed
    have htype := MethodType.read_of_descriptor hspell hdescriptor hclosed
    obtain ⟨out, hpatch⟩ := patch_returnString_total hplain htext hparse hroom hinside hposition
      hmethod htype hreturned hbody
    obtain ⟨d, stub, body, load, i, n, hstub⟩ := stub_of_patch hplain htext hsize hparse hcounted
      hroom hinside hposition hmethod htype hreturned hattributes hpatch
    exact ⟨out, d, stub, body, load, i, n, hpatch, hstub⟩
  · intro hopen
    have hsemicolon : ';' ∈ type.returned.descriptor := by
      rw [hreturned]
      decide
    exact patch_of_unread hparse hposition hmethod
      (MethodType.read_eq_none hdescriptor hopen hsemicolon) (parseBody_returnString hplain)

/-- The method returns a text with characters outside ASCII. -/
theorem patch_returnString_lookup :
    ∃ out d stub body load i n,
      patch compile lookupClass.write "lookup" "(J)Ljava/lang/String;"
        ("return \"" ++ "naïve 😀" ++ "\";") = .ok out ∧
      ClassFile.parse out = .ok d ∧
      d.findMethod "lookup" "(J)Ljava/lang/String;" = some 0 ∧
      d.methods[0]? = some stub ∧ stub.body d.pool = .ok body ∧
      Instruction.decodeAll body.code = .ok [load, .areturn] ∧
      ((∃ k : UInt8, load = .ldc k ∧ k.toUInt16 = i) ∨ load = .ldcW i) ∧
      d.pool.at? i = some (.string n) ∧ d.pool.text? n = some "naïve 😀" ∧
      body.maxStack = 1 ∧
      body.maxLocals.toNat = min 65535 ((if lookupMethod.isStatic then 0 else 1) +
        (([.long] : List JavaType).map JavaType.slots).sum) ∧
      body.handlers = [] := by
  have hspell : MethodType.IsSpellable ⟨[.long], .reference "java/lang/String"⟩ :=
    ⟨by decide, by decide⟩
  have hplain : ∀ ch ∈ "naïve 😀".toList, ch ≠ '"' ∧ ch ≠ '\\' ∧ ch ≠ '\n' := by
    simp
  have hshort : (Text.ModifiedUtf8.encode "naïve 😀").length ≤ 65535 := by decide
  have hmethod : lookupClass.methods[0]? = some lookupMethod := rfl
  have hcounted : lookupClass.pool.IsCounted := rfl
  have hroom : lookupMethod.attributes.length < 65535 := by decide
  exact (patch_returnString hplain hshort length_lookupClass parse_lookupClass hcounted (by decide)
    lookupClass_namesInside findMethod_lookupClass hmethod hspell (by decide) rfl hroom
    ⟨lookupBody, body_lookupMethod⟩).1 (by decide)

/-! ### A class among the parameters with a parenthesis in its name -/

/-- The types of the method. -/
def parenthesisType : MethodType := ⟨[.reference "a)b"], .reference "java/lang/String"⟩

/-- A class with this method. -/
def parenthesisClass : ClassFile :=
  { lookupClass with
    pool :=
      { storedSize := 5
        slots := [.utf8 (Text.ModifiedUtf8.encode "lookup"),
          .utf8 (Text.ModifiedUtf8.encode "(La)b;)Ljava/lang/String;"),
          .utf8 (Text.ModifiedUtf8.encode MethodBody.attributeName),
          .utf8 (Text.ModifiedUtf8.encode "LineNumberTable")] } }

theorem parse_parenthesisClass : ClassFile.parse parenthesisClass.write = .ok parenthesisClass := by
  have hreadable : parenthesisClass.IsReadable :=
    { pool := { laidOut := rfl, fills := trivial, writable := by decide }
      lists := { lookupClass_isReadable.lists with } }
  exact hreadable.parse_write

theorem findMethod_parenthesisClass :
    parenthesisClass.findMethod "lookup" "(La)b;)Ljava/lang/String;" = some 0 := by
  have hname : parenthesisClass.pool.text? 1 = some "lookup" := text?_of_at? rfl
  have hdescriptor : parenthesisClass.pool.text? 2 = some "(La)b;)Ljava/lang/String;" :=
    text?_of_at? rfl
  exact ClassFile.findMethod_single rfl hname hdescriptor

/-- All is in order with the class, but its method cannot be replaced. -/
theorem patch_returnString_parenthesis :
    parenthesisType.IsSpellable ∧
      "(La)b;)Ljava/lang/String;".toList = parenthesisType.descriptor ∧
      parenthesisType.returned = .reference "java/lang/String" ∧
      parenthesisClass.write.length < 2 ^ 31 ∧
      ClassFile.parse parenthesisClass.write = .ok parenthesisClass ∧
      parenthesisClass.pool.IsCounted ∧ parenthesisClass.pool.slots.length ≤ 65531 ∧
      parenthesisClass.NamesInside ∧
      parenthesisClass.findMethod "lookup" "(La)b;)Ljava/lang/String;" = some 0 ∧
      parenthesisClass.methods[0]? = some lookupMethod ∧
      lookupMethod.attributes.length < 65535 ∧
      lookupMethod.body parenthesisClass.pool = .ok lookupBody ∧
      patch compile parenthesisClass.write "lookup" "(La)b;)Ljava/lang/String;"
        ("return \"" ++ "s" ++ "\";") =
          .error (.compileFailed
            (.generation (.invalidDescriptor "(La)b;)Ljava/lang/String;"))) := by
  have hspell : parenthesisType.IsSpellable := ⟨by decide, by decide⟩
  have hlength : parenthesisClass.write.length = 130 := rfl
  have hinside : parenthesisClass.NamesInside := by
    constructor <;> decide
  have hunread : MethodType.read "(La)b;)Ljava/lang/String;" = none := by decide +kernel
  have hplain : IsPlain "s".toList := by
    intro ch hch
    rw [List.mem_singleton.mp hch]
    decide
  refine ⟨hspell, by decide, rfl, by omega, parse_parenthesisClass, rfl, by decide, hinside,
    findMethod_parenthesisClass, rfl, by decide, rfl, ?_⟩
  exact patch_of_unread parse_parenthesisClass findMethod_parenthesisClass rfl hunread
    (parseBody_returnString hplain)

end Defuse
