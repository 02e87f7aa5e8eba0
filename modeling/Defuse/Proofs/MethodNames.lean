import Defuse.Proofs.Readability
import Defuse.Proofs.Repatching
import Defuse.Proofs.ShortestForms

namespace Defuse

open ConstantPool

/-!
# Which method is patched

Methods are looked for by what their names are read as, and some bytes are read as a text that
is stored in others.

* `Text.ModifiedUtf8.eq_encode_iff` — bytes that are read as a text are those it is stored in
  exactly if they are a stored text at all;
* `Member.IsExactly` — a method whose name and descriptor are stored as two texts are;
* `Member.isExactly_iff` — for a method that is found, a condition on its own bytes only;
* `patch_exact` — the method that is patched is the first one that reads as it is asked for, and
  no method in front of it has the name and the descriptor;
* `patch_twinClass_wrong` — a class in which a method stands behind the one that is patched in
  its place.
-/

/-! ### Stored texts -/

namespace Text.ModifiedUtf8

/-- Bytes that some text is stored in: shortest forms of units in which halves of pairs meet. -/
def IsStored (bs : List UInt8) : Prop := ∃ us, Spells us bs ∧ HalvesMeet us

/-- A text is stored as the bytes that it is encoded to. -/
theorem isStored_encode (s : String) : IsStored (encode s) :=
  ⟨unitsOf s.toList, spells_iff.mpr rfl, halvesMeet_unitsOf _⟩

/-- A stored text is stored again in the same bytes. -/
theorem IsStored.encode_decode {bs : List UInt8} (h : IsStored bs) : encode (decode bs) = bs := by
  obtain ⟨us, hspells, hmeet⟩ := h
  obtain rfl := spells_iff.mp hspells
  have hunits : decodeUnits (encodeUnits us) = us := by
    simpa using decodeUnits_encodeUnits_append us []
  rw [decode, hunits, encode, String.toList_ofList, hmeet.unitsOf_ofUnits]

/-- Bytes that are read as a text are those that it is stored in, if they are a stored text. -/
theorem eq_encode_iff {bs : List UInt8} {s : String} (h : decode bs = s) :
    bs = encode s ↔ IsStored bs := by
  constructor
  · rintro rfl
    exact isStored_encode s
  · intro hstored
    rw [← h, hstored.encode_decode]

end Text.ModifiedUtf8

/-! ### Names of methods -/

namespace Member

variable {m : Member} {p : ConstantPool} {name descriptor : String}

/-- The name and the descriptor are stored in the very bytes of two texts. -/
def IsExactly (m : Member) (p : ConstantPool) (name descriptor : String) : Prop :=
  p.bytes? m.nameIndex = some (Text.ModifiedUtf8.encode name) ∧
    p.bytes? m.descriptorIndex = some (Text.ModifiedUtf8.encode descriptor)

instance : Decidable (m.IsExactly p name descriptor) := inferInstanceAs (Decidable (_ ∧ _))

/-- A method that reads as it is asked for has two constants that do. -/
theorem isNamed_iff : m.isNamed p name descriptor = true ↔
    ∃ nameBytes descriptorBytes, p.bytes? m.nameIndex = some nameBytes ∧
      p.bytes? m.descriptorIndex = some descriptorBytes ∧
      Text.ModifiedUtf8.decode nameBytes = name ∧
      Text.ModifiedUtf8.decode descriptorBytes = descriptor := by
  simp only [isNamed, text?, Bool.and_eq_true, decide_eq_true_eq, Option.map_eq_some_iff]
  constructor
  · rintro ⟨⟨nameBytes, hname, hn⟩, descriptorBytes, hdescriptor, hd⟩
    exact ⟨nameBytes, descriptorBytes, hname, hdescriptor, hn, hd⟩
  · rintro ⟨nameBytes, descriptorBytes, hname, hdescriptor, hn, hd⟩
    exact ⟨⟨nameBytes, hname, hn⟩, descriptorBytes, hdescriptor, hd⟩

/-- What is stored as it is asked for reads so. -/
theorem IsExactly.isNamed (h : m.IsExactly p name descriptor) :
    m.isNamed p name descriptor = true :=
  isNamed_iff.mpr ⟨_, _, h.1, h.2, Text.ModifiedUtf8.decode_encode _,
    Text.ModifiedUtf8.decode_encode _⟩

/-- What reads as it is asked for is stored so if it is a stored text. -/
theorem isExactly_iff {nameBytes descriptorBytes : Bytes}
    (hname : p.bytes? m.nameIndex = some nameBytes)
    (hdescriptor : p.bytes? m.descriptorIndex = some descriptorBytes)
    (hn : Text.ModifiedUtf8.decode nameBytes = name)
    (hd : Text.ModifiedUtf8.decode descriptorBytes = descriptor) :
    m.IsExactly p name descriptor ↔
      Text.ModifiedUtf8.IsStored nameBytes ∧ Text.ModifiedUtf8.IsStored descriptorBytes := by
  rw [← Text.ModifiedUtf8.eq_encode_iff hn, ← Text.ModifiedUtf8.eq_encode_iff hd, IsExactly,
    hname, hdescriptor, Option.some.injEq, Option.some.injEq]

end Member

/-- The method that is found reads as it is asked for, and none in front of it does. -/
theorem ClassFile.findMethod_eq_some_iff {c : ClassFile} {name descriptor : String}
    {position : Nat} {method : Member} (hmethod : c.methods[position]? = some method) :
    c.findMethod name descriptor = some position ↔
      method.isNamed c.pool name descriptor = true ∧
        ∀ m ∈ c.methods.take position, m.isNamed c.pool name descriptor = false := by
  obtain ⟨hlt, rfl⟩ := List.getElem?_eq_some_iff.mp hmethod
  rw [findMethod, List.findIdx?_eq_some_iff_getElem]
  constructor
  · rintro ⟨_, hnamed, hbefore⟩
    refine ⟨hnamed, ?_⟩
    -- what is taken from the front stands at one of the earlier places
    intro m hm
    obtain ⟨i, hi, rfl⟩ := List.mem_take_iff_getElem.mp hm
    have hfront := hbefore i (by omega)
    simpa using hfront
  · rintro ⟨hnamed, hbefore⟩
    refine ⟨hlt, hnamed, ?_⟩
    intro i hi
    have hmem : c.methods[i] ∈ c.methods.take position :=
      List.mem_take_iff_getElem.mpr ⟨i, by omega, rfl⟩
    simp [hbefore _ hmem]

/-- **The method that is patched.** No method in front of it has the name and the descriptor.
Its own two constants read as they are asked for, and they are stored so exactly if each of them
is a stored text: made of shortest forms, in which every half of a pair meets the other. -/
theorem patch_exact {bytes out : Bytes} {name descriptor source : String}
    (h : patch compile bytes name descriptor source = .ok out) :
    ∃ c, ∃ r : Rework c, ClassFile.parse bytes = .ok c ∧ out = r.result.write ∧
      (∀ m ∈ c.methods.take r.position, ¬ m.IsExactly c.pool name descriptor) ∧
      ∃ nameBytes descriptorBytes, c.pool.bytes? r.method.nameIndex = some nameBytes ∧
        c.pool.bytes? r.method.descriptorIndex = some descriptorBytes ∧
        Text.ModifiedUtf8.decode nameBytes = name ∧
        Text.ModifiedUtf8.decode descriptorBytes = descriptor ∧
        (r.method.IsExactly c.pool name descriptor ↔
          Text.ModifiedUtf8.IsStored nameBytes ∧ Text.ModifiedUtf8.IsStored descriptorBytes) := by
  obtain ⟨c, r, mid, hparse, hposition, -, -, -, hout⟩ := patch_ok h
  obtain ⟨hnamed, hbefore⟩ := (ClassFile.findMethod_eq_some_iff r.isMethod).mp hposition
  refine ⟨c, r, hparse, hout, ?_, ?_⟩
  · -- a method with the name and the descriptor would have been found
    intro m hm hexactly
    exact Bool.false_ne_true ((hbefore m hm).symm.trans hexactly.isNamed)
  · obtain ⟨nameBytes, descriptorBytes, hname, hdescriptor, hn, hd⟩ := Member.isNamed_iff.mp hnamed
    exact ⟨nameBytes, descriptorBytes, hname, hdescriptor, hn, hd,
      Member.isExactly_iff hname hdescriptor hn hd⟩

/-- A method whose name and descriptor are stored as they are asked for is patched as such. -/
theorem patch_exact_abstract :
    ∃ out, patch compile abstractClass.write "lookup" "(J)Ljava/lang/String;"
        (returnString "lookup") = .ok out ∧
      ∃ c, ∃ r : Rework c, ClassFile.parse abstractClass.write = .ok c ∧ out = r.result.write ∧
        (∀ m ∈ c.methods.take r.position,
          ¬ m.IsExactly c.pool "lookup" "(J)Ljava/lang/String;") ∧
        ∃ nameBytes descriptorBytes, c.pool.bytes? r.method.nameIndex = some nameBytes ∧
          c.pool.bytes? r.method.descriptorIndex = some descriptorBytes ∧
          Text.ModifiedUtf8.decode nameBytes = "lookup" ∧
          Text.ModifiedUtf8.decode descriptorBytes = "(J)Ljava/lang/String;" ∧
          (r.method.IsExactly c.pool "lookup" "(J)Ljava/lang/String;" ↔
            Text.ModifiedUtf8.IsStored nameBytes ∧
              Text.ModifiedUtf8.IsStored descriptorBytes) := by
  obtain ⟨out, hout⟩ := patch_abstractClass
  exact ⟨out, hout, patch_exact hout⟩

/-! ### Two methods that read the same -/

/-- A class with two abstract methods.  The name of the first one is half of a pair that stands
alone, which is read as the character U+FFFD; the name of the second one is this character. -/
def twinClass : ClassFile :=
  { lookupClass with
    pool :=
      { storedSize := 5
        slots := [.utf8 [0xED, 0xA0, 0x80], .utf8 (Text.ModifiedUtf8.encode "()V"),
          .utf8 (Text.ModifiedUtf8.encode MethodBody.attributeName),
          .utf8 (Text.ModifiedUtf8.encode "\uFFFD")] }
    methodsCount := 2
    methods := [⟨Member.abstractFlag, 1, 2, 0, []⟩, ⟨Member.abstractFlag, 4, 2, 0, []⟩] }

/-- The counts in the class of the example are right, also with a second method. -/
theorem twinClass_isReadable : twinClass.IsReadable where
  pool := { laidOut := rfl, fills := trivial, writable := by decide }
  lists :=
    { lookupClass_isReadable.lists with
      methodsCount := rfl
      methods := by
        intro m hm
        simp only [twinClass, List.mem_cons, List.not_mem_nil, or_false] at hm
        rcases hm with rfl | rfl <;> exact ⟨rfl, List.forall_mem_nil _⟩ }

theorem parse_twinClass : ClassFile.parse twinClass.write = .ok twinClass :=
  twinClass_isReadable.parse_write

/-- The search finds the first method, whose name is not the text that is asked for. -/
theorem findMethod_twinClass : twinClass.findMethod "\uFFFD" "()V" = some 0 := by
  decide +kernel

/-- Compiling for this class needs no further constant. -/
theorem generated_twinClass :
    outcome (generated compile ⟨"\uFFFD", "()V", false⟩ "return;") twinClass.pool =
      (.ok (⟨[.return], 0, 1⟩, 3), twinClass.pool) := by
  have hfind : twinClass.pool.find?
      (.utf8 (Text.ModifiedUtf8.encode MethodBody.attributeName)) = some 3 := by decide
  exact generated_eq_ok.mpr ⟨_, compile_return "\uFFFD" false _, utf8_of_find? hfind⟩

/-- The method that is found is patched. -/
theorem patch_twinClass :
    ∃ out, patch compile twinClass.write "\uFFFD" "()V" "return;" = .ok out :=
  patch_total parse_twinClass findMethod_twinClass rfl generated_twinClass rfl
    twinClass_isReadable.pool.writable

/-- **The wrong method.** Patching this class succeeds, on a method that does not have the name,
though there is one that does. -/
theorem patch_twinClass_wrong :
    ∃ out, patch compile twinClass.write "\uFFFD" "()V" "return;" = .ok out ∧
      ClassFile.parse twinClass.write = .ok twinClass ∧
      ∃ r : Rework twinClass, out = r.result.write ∧
        ¬ r.method.IsExactly twinClass.pool "\uFFFD" "()V" ∧
        ∃ m, twinClass.methods[r.position + 1]? = some m ∧
          m.IsExactly twinClass.pool "\uFFFD" "()V" := by
  obtain ⟨out, hout⟩ := patch_twinClass
  refine ⟨out, hout, parse_twinClass, ?_⟩
  obtain ⟨c, r, mid, hparse, hposition, -, -, -, rfl⟩ := patch_ok hout
  -- the class that was patched is this one, in its first method
  obtain rfl := Except.ok.inj (parse_twinClass.symm.trans hparse)
  have hfirst : r.position = 0 := Option.some.inj (hposition.symm.trans findMethod_twinClass)
  have hmethod := r.isMethod
  rw [hfirst] at hmethod
  refine ⟨r, rfl, ?_, ?_⟩
  · rw [← Option.some.inj hmethod]
    decide
  · rw [hfirst]
    exact ⟨_, rfl, by decide⟩

end Defuse
