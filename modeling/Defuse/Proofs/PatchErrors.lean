import Defuse.Proofs.Repatching
import Defuse.Proofs.Substitution

namespace Defuse

open ConstantPool

/-!
# How patching fails

* `ClassFile.Compiles` — a source text compiles to a body of one of the methods;
* `PatchEnds`, `patch_ends` — all that patching a readable class can end with;
* `patch_malformed_iff` — such a class is called malformed only if a source text that compiles
  throws what has too long a name;
* `patch_throwLetters` — and every class with room for the constants then is.
-/

/-! ### Readable classes -/

/-- A class has a method to which a source text compiles, and room for what the body needs. -/
def ClassFile.Compiles (c : ClassFile) (name descriptor source : String) : Prop :=
  ∃ position method code q, c.findMethod name descriptor = some position ∧
    c.methods[position]? = some method ∧
    outcome (generated compile ⟨name, descriptor, method.isStatic⟩ source) c.pool = (.ok code, q)

/-- All that patching a method of a readable class can end with. -/
inductive PatchEnds (c : ClassFile) (name descriptor source : String) :
    Except PatchError Bytes → Prop where
  | missing (h : ¬ c.Compiles name descriptor source) :
      PatchEnds c name descriptor source (.error (.methodNotFound name descriptor))
  | refused (cause : CompileError) (h : ¬ c.Compiles name descriptor source) :
      PatchEnds c name descriptor source (.error (.compileFailed cause))
  | unwritable (h : c.Compiles name descriptor source) (hlong : ThrowsLongName source) :
      PatchEnds c name descriptor source (.error (.malformed (.unwritable .textTooLong)))
  | patched (out : Bytes) (h : c.Compiles name descriptor source)
      (hshort : ¬ ThrowsLongName source) : PatchEnds c name descriptor source (.ok out)

variable {bytes : Bytes} {c : ClassFile} {name descriptor source : String} {position : Nat}
  {method : Member}

namespace PatchEnds

variable {r : Except PatchError Bytes}

/-- With a short name the class is written, or an error has another reason. -/
theorem of_short (h : PatchEnds c name descriptor source r) (hshort : ¬ ThrowsLongName source) :
    (∃ out, r = .ok out) ∨ r = .error (.methodNotFound name descriptor) ∨
      ∃ cause, r = .error (.compileFailed cause) := by
  cases h with
  | missing h => exact .inr (.inl rfl)
  | refused cause h => exact .inr (.inr ⟨cause, rfl⟩)
  | unwritable h hlong => exact absurd hlong hshort
  | patched out h _ => exact .inl ⟨out, rfl⟩

/-- What is patched ends as malformed only where the class has too long a name to throw. -/
theorem malformed_iff (h : PatchEnds c name descriptor source r) (cause : Malformation) :
    r = .error (.malformed cause) ↔
      cause = .unwritable .textTooLong ∧ ThrowsLongName source ∧
        c.Compiles name descriptor source := by
  cases h with
  | missing h => exact iff_of_false (by simp) fun hc => h hc.2.2
  | refused cause h => exact iff_of_false (by simp) fun hc => h hc.2.2
  | unwritable h hlong =>
    constructor
    · intro heq
      cases heq
      exact ⟨rfl, hlong, h⟩
    · rintro ⟨rfl, -, -⟩
      rfl
  | patched out h hshort => exact iff_of_false (by simp) fun hc => hshort hc.2.1

end PatchEnds

/-- A class is patched, or the error tells why not, if its attributes have their names inside the
pool and the method has a readable body or none. -/
theorem patch_ends (hparse : ClassFile.parse bytes = .ok c)
    (hinside : ∀ m ∈ c.methods, ∀ a ∈ m.attributes, a.nameIndex.toNat ≤ c.pool.slots.length)
    (hbody : ∀ position method, c.findMethod name descriptor = some position →
      c.methods[position]? = some method → ∃ b, method.body c.pool = .ok b) :
    PatchEnds c name descriptor source (patch compile bytes name descriptor source) := by
  cases hposition : c.findMethod name descriptor with
  | none =>
    rw [patch_of_missing hparse hposition]
    refine .missing ?_
    rintro ⟨position, _, _, _, hfound, -⟩
    rw [hposition] at hfound
    cases hfound
  | some position =>
    obtain ⟨method, hmethod⟩ := ClassFile.exists_of_findMethod hposition
    rcases hrun : outcome (generated compile ⟨name, descriptor, method.isStatic⟩ source) c.pool
      with ⟨e | ⟨g, nameIndex⟩, q⟩
    · rw [patch_of_found hparse hposition hmethod, hrun]
      refine .refused e ?_
      rintro ⟨_, _, _, _, hfound, hthere, hcode⟩
      cases hposition.symm.trans hfound
      cases hmethod.symm.trans hthere
      cases hrun.symm.trans hcode
    · have hcompiles : c.Compiles name descriptor source :=
        ⟨position, method, _, q, hposition, hmethod, hrun⟩
      -- the attributes have the names that they had, so the body is the one that can be read
      have hsame : method.body q = method.body c.pool :=
        Member.body_grown (generated_grown hrun) (hinside method (List.mem_of_getElem? hmethod))
      obtain ⟨body, hread⟩ := hbody position method hposition hmethod
      rw [← hsame] at hread
      obtain ⟨d, hcode, hpool⟩ := ClassFile.exists_withCode hread position nameIndex g
      rw [patch_of_coded hparse hposition hmethod hrun hcode]
      have hwritable : d.pool.isWritable = true ↔ ¬ ThrowsLongName source := by
        obtain ⟨-, hreadable, -⟩ := ClassFile.parse_eq_ok.mp hparse
        rw [hpool, generated_writable _ source c.pool q _ hrun]
        exact and_iff_right hreadable.pool.writable
      by_cases hlong : ThrowsLongName source
      · have hunwritable : ¬ d.pool.isWritable = true := fun h => hwritable.mp h hlong
        rw [ClassFile.toBytes, if_neg hunwritable]
        exact .unwritable hcompiles hlong
      · rw [ClassFile.toBytes, if_pos (hwritable.mpr hlong)]
        exact .patched d.write hcompiles hlong

/-- An entry that can be had is called unreadable if its class is called malformed. -/
theorem Outcome.ofPatch_eq_unreadable_iff {r : Except PatchError Bytes}
    {cause : UnreadableEntry} : ofPatch r = .entryUnreadable cause ↔
      ∃ m, r = .error (.malformed m) ∧ cause = .class m := by
  unfold ofPatch
  split <;> simp [eq_comm]

/-- No method of the class with an abstract method has a body. -/
theorem abstractClass_bodies : ∀ position method,
    abstractClass.findMethod "lookup" "(J)Ljava/lang/String;" = some position →
    abstractClass.methods[position]? = some method →
    ∃ b, method.body abstractClass.pool = .ok b := by
  intro position method hposition hmethod
  cases findMethod_abstractClass.symm.trans hposition
  cases hmethod
  exact ⟨_, rfl⟩

/-- **Malformed classes.** A readable class is called malformed exactly if a source text that
compiles for it throws a new object of a class whose name is too long.  With all other source
texts it is patched, or the method is missing, or the source text does not compile.  So the same
is true of a target whose entry holds the class: this is the only reason for which it is
called unreadable. -/
theorem patch_malformed_iff (hparse : ClassFile.parse bytes = .ok c)
    (hinside : ∀ m ∈ c.methods, ∀ a ∈ m.attributes, a.nameIndex.toNat ≤ c.pool.slots.length)
    (hbody : ∀ position method, c.findMethod name descriptor = some position →
      c.methods[position]? = some method → ∃ b, method.body c.pool = .ok b) :
    (¬ ThrowsLongName source →
      (∃ out, patch compile bytes name descriptor source = .ok out) ∨
        patch compile bytes name descriptor source = .error (.methodNotFound name descriptor) ∨
        ∃ cause, patch compile bytes name descriptor source = .error (.compileFailed cause)) ∧
    (∀ cause, patch compile bytes name descriptor source = .error (.malformed cause) ↔
      cause = .unwritable .textTooLong ∧ ThrowsLongName source ∧
        c.Compiles name descriptor source) ∧
    ∀ (k : Container) (t : Target), k.lookup t.entryPath = .ok bytes → t.methodName = name →
      t.descriptor = descriptor → t.source = source → ∀ cause,
        patchTarget compile k t = .entryUnreadable cause ↔
          cause = .class (.unwritable .textTooLong) ∧ ThrowsLongName source ∧
            c.Compiles name descriptor source := by
  have hends : PatchEnds c name descriptor source _ := patch_ends hparse hinside hbody
  refine ⟨hends.of_short, hends.malformed_iff, ?_⟩
  rintro k t hentry rfl rfl rfl cause
  rw [patchTarget_eq, hentry]
  simp only [Outcome.ofPatch_eq_unreadable_iff]
  constructor
  · rintro ⟨cause, hcause, rfl⟩
    -- the cause is carried on as it is
    obtain ⟨rfl, hlong, hcompiles⟩ := (hends.malformed_iff cause).mp hcause
    exact ⟨rfl, hlong, hcompiles⟩
  · rintro ⟨rfl, hlong, hcompiles⟩
    exact ⟨_, (hends.malformed_iff _).mpr ⟨rfl, hlong, hcompiles⟩, rfl⟩

/-- Returning a text throws nothing, so the class with an abstract method is not called
malformed. -/
theorem patch_malformed_iff_returned :
    ¬ ThrowsLongName (returnString "lookup") ∧
      ∀ cause, patch compile abstractClass.write "lookup" "(J)Ljava/lang/String;"
        (returnString "lookup") ≠ .error (.malformed cause) := by
  have hshort : ¬ ThrowsLongName (returnString "lookup") := by
    rintro ⟨name, arguments, hthrow, -⟩
    have hplain : Scan.IsPlain "lookup".toList := by simp [Scan.IsPlain]
    rw [parseBody_returnString hplain] at hthrow
    cases hthrow
  obtain ⟨-, hmalformed, -⟩ := @patch_malformed_iff _ _ _ _ (returnString "lookup")
    parse_abstractClass abstractClass_namesInside.attributes abstractClass_bodies
  refine ⟨hshort, ?_⟩
  intro cause h
  exact hshort ((hmalformed cause).mp h).2.1

/-! ### Names that are too long -/

/-- An internal name is not shorter than the name. -/
theorem length_le_internalName (name : String) : name.length ≤ (internalName name).length := by
  unfold internalName
  split
  · rw [String.length_map]
  · rw [String.length_append]
    omega

/-- A source text that throws a class of so many letters throws a name that is too long. -/
theorem throwsLongName_letters {n : Nat} (hn : 65535 < n) : ThrowsLongName (throwLetters n) := by
  refine ⟨_, [], parseBody_throwLetters (by omega), ?_⟩
  calc 65535 < n := hn
    _ = (String.ofList (List.replicate n 'a')).length := by simp
    _ ≤ (internalName _).length := length_le_internalName _
    _ ≤ (Text.ModifiedUtf8.encode (internalName _)).length :=
        Text.ModifiedUtf8.length_le_encode _

/-- A new object takes two constants for its class, and six for its constructor. -/
theorem throwCode_fitsIn (name descriptor : String) :
    FitsIn (throwCode name descriptor (return [])) 8 :=
  ((FitsIn.className _).adapt _).bind fun _ => (FitsIn.pure []).bind fun _ =>
    ((FitsIn.methodRef _ _ _).adapt _).bind fun _ => .pure _

/-- The source text compiles wherever there is room for the new object and for the name of the
attribute, however long the name of the class is. -/
theorem compiles_throwLetters {n : Nat} {type : MethodType}
    (hn : 65535 < n) (hroom : c.pool.slots.length + 9 ≤ maxIndex)
    (hposition : c.findMethod name descriptor = some position)
    (hmethod : c.methods[position]? = some method)
    (htype : MethodType.read descriptor = some type) :
    c.Compiles name descriptor (throwLetters n) := by
  obtain ⟨is, mid, hbody, hmid⟩ :=
    throwCode_fitsIn (String.ofList (List.replicate n 'a')) "()V" c.pool (by omega)
  obtain ⟨nameIndex, q, hname, -⟩ := FitsIn.utf8 MethodBody.attributeName mid (by omega)
  have hcompile : outcome (compile ⟨name, descriptor, method.isStatic⟩ (throwLetters n)) c.pool =
      (.ok ⟨is, maxStack mid is, localSlots method.isStatic type⟩, mid) :=
    compile_eq_ok.mpr ⟨type, _, htype, parseBody_throwLetters (by omega), hbody, rfl, rfl⟩
  exact ⟨position, method, _, q, hposition, hmethod, generated_eq_ok.mpr ⟨mid, hcompile, hname⟩⟩

/-- A readable class with room for the constants is called malformed, whatever its method is. -/
theorem patch_throwLetters {n : Nat} {type : MethodType} {body : MethodBody} (hn : 65535 < n)
    (hparse : ClassFile.parse bytes = .ok c)
    (hinside : ∀ m ∈ c.methods, ∀ a ∈ m.attributes, a.nameIndex.toNat ≤ c.pool.slots.length)
    (hroom : c.pool.slots.length + 9 ≤ maxIndex)
    (hposition : c.findMethod name descriptor = some position)
    (hmethod : c.methods[position]? = some method) (hbody : method.body c.pool = .ok body)
    (htype : MethodType.read descriptor = some type) :
    patch compile bytes name descriptor (throwLetters n) =
      .error (.malformed (.unwritable .textTooLong)) := by
  have hbodies : ∀ position method, c.findMethod name descriptor = some position →
      c.methods[position]? = some method → ∃ b, method.body c.pool = .ok b := by
    intro position' method' hposition' hmethod'
    cases hposition.symm.trans hposition'
    cases hmethod.symm.trans hmethod'
    exact ⟨body, hbody⟩
  apply ((patch_ends hparse hinside hbodies).malformed_iff _).mpr
  exact ⟨rfl, throwsLongName_letters hn, compiles_throwLetters hn hroom hposition hmethod htype⟩

/-- The class with an abstract method, in which every name is inside the pool and there is no body
to be read, is called malformed for a name of 65536 letters. -/
theorem patch_longName :
    ClassFile.parse abstractClass.write = .ok abstractClass ∧
      (∀ m ∈ abstractClass.methods, ∀ a ∈ m.attributes,
        a.nameIndex.toNat ≤ abstractClass.pool.slots.length) ∧
      (∀ position method,
        abstractClass.findMethod "lookup" "(J)Ljava/lang/String;" = some position →
        abstractClass.methods[position]? = some method →
        ∃ b, method.body abstractClass.pool = .ok b) ∧
      patch compile abstractClass.write "lookup" "(J)Ljava/lang/String;"
        (throwLetters 65536) = .error (.malformed (.unwritable .textTooLong)) := by
  have htype : MethodType.read "(J)Ljava/lang/String;" =
      some ⟨[.long], .reference "java/lang/String"⟩ := by decide +kernel
  have hmethod : abstractClass.methods[0]? = some ⟨Member.abstractFlag ||| 1, 1, 2, 0, []⟩ := rfl
  refine ⟨parse_abstractClass, abstractClass_namesInside.attributes, abstractClass_bodies, ?_⟩
  exact patch_throwLetters (by decide) parse_abstractClass abstractClass_namesInside.attributes
    (by decide) findMethod_abstractClass hmethod rfl htype

end Defuse
