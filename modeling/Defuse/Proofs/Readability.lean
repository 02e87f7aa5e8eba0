import Defuse.Proofs.Replacement

namespace Defuse

open ConstantPool

/-!
# Whether a patched class can be read back

* `patch_counts` — a patched class has right counts, and is read back from its bytes, exactly
  when the counts of the format are large enough for it;
* `ConstantPool.overrun_isReadable` — a pool can be read though its last constant overruns it;
* `patch_largeClass_miscounted` — patching a class with such a pool yields a wrong count.
-/

/-- **Counts of a patched class.** The bytes that patching yields are those of the class with
the new body.  They are read back, all of them, as a class with right counts if the counts of
the format are large enough, and as that class only then.  A pool that was too large is never
counted right. -/
theorem patch_counts {bytes out : Bytes} {name descriptor source : String}
    (h : patch compile bytes name descriptor source = .ok out) :
    ∃ c, ∃ r : Rework c, ∃ mid, ClassFile.parse bytes = .ok c ∧
      c.findMethod name descriptor = some r.position ∧
      outcome (compile ⟨name, descriptor, r.method.isStatic⟩ source) c.pool =
        (.ok r.generated, mid) ∧
      out = r.result.write ∧
      (r.Fits → ∃ d, ClassFile.read out = .ok (d, []) ∧ d.IsCounted) ∧
      (ClassFile.read out = .ok (r.result, []) ∧ r.result.IsCounted ↔ r.Fits) ∧
      (c.pool.slots.length = 65535 →
        ¬ ∃ d rest, ClassFile.read out = .ok (d, rest) ∧ d.IsCounted) := by
  obtain ⟨c, r, mid, hparse, hposition, hcompile, -, hwritable, rfl⟩ := patch_ok h
  obtain ⟨rest, hreadable, -⟩ := ClassFile.parse_eq_ok.mp hparse
  have hiff := r.isCounted_iff hreadable.lists
  have hread (hfits : r.Fits) := r.read_write hreadable hfits hwritable
  refine ⟨c, r, mid, hparse, hposition, hcompile, rfl, ?_, ?_, ?_⟩
  · intro hfits
    exact ⟨r.result, hread hfits, hiff.mpr hfits⟩
  · constructor
    · rintro ⟨-, hcounted⟩
      exact hiff.mp hcounted
    · intro hfits
      exact ⟨hread hfits, hiff.mpr hfits⟩
  -- the size of a full pool does not fit in its word
  · rintro hfull ⟨d, left, hd, hcounted⟩
    exact r.not_isCounted_of_full hfull hd hcounted.pool

/-! ### A class that is too large -/

namespace ConstantPool

/-- Constants of one slot take up as many slots as there are. -/
theorem Fills.append {cs ds : List Constant} {n : Nat} (hcs : ∀ c ∈ cs, c.slots.length = 1)
    (hds : Fills ds n) : Fills (cs ++ ds) (cs.length + n) := by
  induction cs with
  | nil => simpa using hds
  | cons c cs ih =>
    simp only [List.mem_cons, forall_eq_or_imp] at hcs
    have hlen : (c :: cs).length + n = (cs.length + n) + 1 := by
      rw [List.length_cons]
      omega
    rw [List.cons_append, hlen, Fills, hcs.1]
    exact ih hcs.2

/-- A pool of texts with a wide constant in its last slot, which it overruns. -/
def overrun (texts : List Bytes) : ConstantPool where
  storedSize := (texts.length + 2).toUInt16
  slots := texts.map .utf8 ++ [.long 0, .unusable]

variable {texts : List Bytes}

/-- Texts and one wide constant take a slot each, and the wide one takes another. -/
theorem slots_overrun :
    (overrun texts).slots =
      (texts.map Constant.utf8 ++ [Constant.long 0]).flatMap Constant.slots := by
  have htexts : (texts.map Constant.utf8).flatMap Constant.slots = texts.map .utf8 := by
    induction texts with
    | nil => rfl
    | cons text texts ih =>
      rw [List.map_cons, List.flatMap_cons, ih]
      rfl
  rw [List.flatMap_append, htexts]
  rfl

theorem entries_overrun : (overrun texts).entries = texts.map .utf8 ++ [.long 0] := by
  rw [entries, slots_overrun]
  apply filter_flatMap_slots
  intro c hc
  simp only [List.mem_append, List.mem_map, List.mem_singleton] at hc
  rcases hc with ⟨text, -, rfl⟩ | rfl <;> simp

/-- A pool can be read although its last constant overruns its stored count. -/
theorem overrun_isReadable (hlen : texts.length ≤ 65533)
    (hshort : ∀ text ∈ texts, text.length < 65536) : (overrun texts).IsReadable where
  laidOut := by
    rw [IsLaidOut, entries_overrun]
    exact slots_overrun
  fills := by
    have hsize : (overrun texts).storedSize.toNat - 1 = (texts.map Constant.utf8).length + 1 := by
      simp [overrun]
      omega
    rw [entries_overrun, hsize]
    refine Fills.append ?_ trivial
    intro c hc
    obtain ⟨text, -, rfl⟩ := List.mem_map.mp hc
    rfl
  writable := by
    rw [isWritable, List.all_eq_true]
    intro c hc
    simp only [overrun, List.mem_append, List.mem_map, List.mem_cons] at hc
    rcases hc with ⟨text, htext, rfl⟩ | rfl | rfl | hc
    · simpa [Constant.isWritable] using hshort text htext
    · rfl
    · rfl
    · cases hc

end ConstantPool

/-- A name, a descriptor, the name of a body, and empty texts. -/
def manyTexts (empty : Nat) : List Bytes :=
  Text.ModifiedUtf8.encode "m" :: Text.ModifiedUtf8.encode "()V" ::
    Text.ModifiedUtf8.encode MethodBody.attributeName :: List.replicate empty []

/-- Three of the texts have a use, the others are empty. -/
theorem length_manyTexts (n : Nat) : (manyTexts n).length = n + 3 := by
  simp only [manyTexts, List.length_cons, List.length_replicate]

theorem manyTexts_short (n : Nat) : ∀ text ∈ manyTexts n, text.length < 65536 := by
  simp only [manyTexts, List.mem_cons, List.mem_replicate]
  rintro text (rfl | rfl | rfl | ⟨-, rfl⟩) <;> decide

/-- A class with one abstract method, and with a wide constant behind many texts. -/
def largeClass (empty : Nat) : ClassFile where
  minor := 0
  major := 52
  pool := overrun (manyTexts empty)
  flags := 0x0421
  thisClass := 0
  superClass := 0
  interfacesCount := 0
  interfaces := []
  fieldsCount := 0
  fields := []
  methodsCount := 1
  methods := [⟨Member.abstractFlag, 1, 2, 0, []⟩]
  attributesCount := 0
  attributes := []

/-- The pool has two slots for the wide constant, and one for each text. -/
theorem length_largeClass (n : Nat) : (largeClass n).pool.slots.length = n + 5 := by
  rw [largeClass, overrun, List.length_append, List.length_map, length_manyTexts]
  rfl

/-- The class of the example can be read as long as its pool can. -/
theorem largeClass_isReadable {n : Nat} (hn : n ≤ 65530) : (largeClass n).IsReadable where
  pool := overrun_isReadable (by rw [length_manyTexts]; omega) (manyTexts_short n)
  lists :=
    { interfaces := rfl
      fieldsCount := rfl
      fields := by simp [largeClass]
      methodsCount := rfl
      methods := by
        intro m hm
        rw [List.mem_singleton.mp hm]
        exact ⟨rfl, by simp⟩
      attributesCount := rfl
      attributes := by simp [largeClass] }

/-- Returning without a result needs no constants. -/
theorem compile_return (name : String) (isStatic : Bool) (p : ConstantPool) :
    outcome (compile ⟨name, "()V", isStatic⟩ "return;") p =
      (.ok ⟨[.return], 0, localSlots isStatic ⟨[], .void⟩⟩, p) := by
  have hparse : parseBody "return;" = .ok [.return none] := by cbv
  have htype : MethodType.read "()V" = some ⟨[], .void⟩ := by decide +kernel
  exact compile_eq_ok.mpr ⟨_, _, htype, hparse, rfl, rfl, rfl⟩

/-- Compiling for this class needs no further constant. -/
theorem generated_largeClass (n : Nat) :
    outcome (generated compile ⟨"m", "()V", false⟩ "return;") (largeClass n).pool =
      (.ok (⟨[.return], 0, 1⟩, 3), (largeClass n).pool) := by
  have hfind : (largeClass n).pool.find?
      (.utf8 (Text.ModifiedUtf8.encode MethodBody.attributeName)) = some 3 := by
    have hm : Text.ModifiedUtf8.encode "m" ≠
        Text.ModifiedUtf8.encode MethodBody.attributeName := by decide
    have hv : Text.ModifiedUtf8.encode "()V" ≠
        Text.ModifiedUtf8.encode MethodBody.attributeName := by decide
    simp [find?, largeClass, overrun, manyTexts, List.findIdx?_cons, hm, hv]
  exact generated_eq_ok.mpr ⟨_, compile_return "m" false _, utf8_of_find? hfind⟩

theorem parse_largeClass {n : Nat} (hn : n ≤ 65530) :
    ClassFile.parse (largeClass n).write = .ok (largeClass n) :=
  (largeClass_isReadable hn).parse_write

/-- The class of the example is patched, since its pool has the name of the attribute already. -/
theorem patch_largeClass {n : Nat} (hn : n ≤ 65530) :
    ∃ out, patch compile (largeClass n).write "m" "()V" "return;" = .ok out := by
  have hname : (largeClass n).pool.text? 1 = some "m" := text?_of_at? rfl
  have hdescriptor : (largeClass n).pool.text? 2 = some "()V" := text?_of_at? rfl
  have hposition : (largeClass n).findMethod "m" "()V" = some 0 :=
    ClassFile.findMethod_single rfl hname hdescriptor
  have hwritable := (largeClass_isReadable hn).pool.writable
  exact patch_total (parse_largeClass hn) hposition rfl (generated_largeClass n) rfl hwritable

/-- The counts of a class with a small pool, patched. -/
theorem patch_counts_small :
    ∃ out, patch compile (largeClass 0).write "m" "()V" "return;" = .ok out ∧
      ∃ c, ∃ r : Rework c, ∃ mid, ClassFile.parse (largeClass 0).write = .ok c ∧
        c.findMethod "m" "()V" = some r.position ∧
        outcome (compile ⟨"m", "()V", r.method.isStatic⟩ "return;") c.pool =
          (.ok r.generated, mid) ∧
        out = r.result.write ∧
        (r.Fits → ∃ d, ClassFile.read out = .ok (d, []) ∧ d.IsCounted) ∧
        (ClassFile.read out = .ok (r.result, []) ∧ r.result.IsCounted ↔ r.Fits) ∧
        (c.pool.slots.length = 65535 →
          ¬ ∃ d rest, ClassFile.read out = .ok (d, rest) ∧ d.IsCounted) := by
  obtain ⟨out, hout⟩ := patch_largeClass (Nat.zero_le 65530)
  exact ⟨out, hout, patch_counts hout⟩

/-- **A wrong count.** A class can be read, and patched, of which what patching yields is not
read back with right counts. -/
theorem patch_largeClass_miscounted :
    ∃ out, patch compile (largeClass 65530).write "m" "()V" "return;" = .ok out ∧
      ¬ ∃ d rest, ClassFile.read out = .ok (d, rest) ∧ d.IsCounted := by
  obtain ⟨out, hout⟩ := patch_largeClass (Nat.le_refl _)
  refine ⟨out, hout, ?_⟩
  obtain ⟨c, r, mid, hparse, -, -, -, -, rfl⟩ := patch_ok hout
  -- the class that was patched is this one, and its pool is full
  rw [parse_largeClass (Nat.le_refl _)] at hparse
  cases hparse
  rintro ⟨d, rest, hd, hcounted⟩
  exact r.not_isCounted_of_full (length_largeClass 65530) hd hcounted.pool

end Defuse
