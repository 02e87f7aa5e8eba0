import Defuse.Proofs.Completion

namespace Defuse

open Reader

/-!
# Classes that are cut short

* `ClassFile.readBehindMagic` — what reads a class behind its magic number, and can be completed;
* `ClassFile.MeetsTag` — bytes of a class up to a tag that no constant has;
* `ClassFile.parse_eq_badMagic`, `ClassFile.parse_eq_unknownTag`, `ClassFile.parse_eq_endOfInput` —
  when each of the errors arises;
* `parse_truncated` — all of them together: the bytes ran out exactly if further ones make them
  a class.
-/

namespace ClassFile

/-! ### The parts of a class -/

/-- Reads what stands behind the pool. -/
def readBehindPool (minor major : UInt16) (pool : ConstantPool) : Reader ReadError ClassFile := do
  let flags ← Reader.word16 .endOfInput
  let thisClass ← Reader.word16 .endOfInput
  let superClass ← Reader.word16 .endOfInput
  let interfacesCount ← Reader.word16 .endOfInput
  let interfaces ← Reader.many (Reader.word16 .endOfInput) interfacesCount.toNat
  let fieldsCount ← Reader.word16 .endOfInput
  let fields ← Reader.many Member.read fieldsCount.toNat
  let methodsCount ← Reader.word16 .endOfInput
  let methods ← Reader.many Member.read methodsCount.toNat
  let attributesCount ← Reader.word16 .endOfInput
  let attributes ← Reader.many Attribute.read attributesCount.toNat
  return {
    minor, major, pool, flags, thisClass, superClass, interfacesCount, interfaces,
    fieldsCount, fields, methodsCount, methods, attributesCount, attributes }

/-- Reads what stands behind the magic number. -/
def readBehindMagic : Reader ReadError ClassFile := do
  let minor ← Reader.word16 .endOfInput
  let major ← Reader.word16 .endOfInput
  let pool ← ConstantPool.read
  readBehindPool minor major pool

/-- Reading a class is reading the mark, then the rest. -/
theorem read_eq : ClassFile.read = readMagic >>= fun _ => readBehindMagic := rfl

/-- What stands behind the pool has no kinds of its own, so missing bytes can be supplied. -/
theorem readBehindPool_completable {E : ReadError → Prop} (minor major : UInt16)
    (pool : ConstantPool) : Completable E (readBehindPool minor major pool) := by
  -- three words, then four counted lists
  refine Completable.word16.bind fun _ => Completable.word16.bind fun _ =>
    Completable.word16.bind fun _ => ?_
  refine Completable.word16.bind fun count => (Completable.word16.many count.toNat).bind fun _ => ?_
  refine Completable.word16.bind fun count =>
    (Member.read_completable.many count.toNat).bind fun _ => ?_
  refine Completable.word16.bind fun count =>
    (Member.read_completable.many count.toNat).bind fun _ => ?_
  exact Completable.word16.bind fun count =>
    (Attribute.read_completable.many count.toNat).bind fun _ => .pure _

/-- What stands behind the mark can be completed, unless a constant has an unknown tag. -/
theorem readBehindMagic_completable : Completable ReadError.IsUnknownTag readBehindMagic :=
  Completable.word16.bind fun _ => Completable.word16.bind fun _ =>
    ConstantPool.read_completable.bind fun _ => readBehindPool_completable _ _ _

/-! ### The magic number -/

theorem read_of_magic (bs : Bytes) : ClassFile.read (magic ++ bs) = readBehindMagic bs := rfl

/-- Bytes that start with the magic number. -/
theorem eq_magic_append {bs : Bytes} (h : bs.take 4 = magic) : bs = magic ++ bs.drop 4 := by
  rw [← h, List.take_append_drop]

/-- Four other bytes are refused. -/
theorem read_of_not_magic {bs : Bytes} (hlen : 4 ≤ bs.length) (h : bs.take 4 ≠ magic) :
    ClassFile.read bs = .error .badMagic := by
  have hfront : Reader.bytes ReadError.endOfInput 4 bs = .ok (bs.take 4, bs.drop 4) := by
    rw [Reader.bytes]
    exact if_pos (by rw [List.length_take]; omega)
  have hmagic : readMagic bs = .error .badMagic := by
    apply bind_eq_error.mpr
    refine .inr ⟨_, _, hfront, ?_⟩
    rw [if_neg h]
    rfl
  rw [read_eq]
  exact bind_eq_error.mpr (.inl hmagic)

/-! ### Errors -/

/-- Parsing fails exactly where reading does. -/
theorem parse_eq_error {bs : Bytes} {e : ClassError} :
    parse bs = .error e ↔ ∃ x, ClassFile.read bs = .error x ∧ x.located bs.length = e := by
  unfold parse
  cases ClassFile.read bs with
  | error x => simp
  | ok p => simp

/-- Bytes in front of further ones are read as they are. -/
theorem parse_append {bs : Bytes} {c : ClassFile} (h : parse bs = .ok c) (more : Bytes) :
    parse (bs ++ more) = .ok c := by
  obtain ⟨rest, hc, rfl⟩ := parse_eq_ok.mp h
  exact parse_eq_ok.mpr ⟨rest ++ more, hc, List.append_assoc ..⟩

/-- A magic number is refused if it is another one. -/
theorem parse_eq_badMagic {bs : Bytes} (hlen : 4 ≤ bs.length) :
    parse bs = .error .badMagic ↔ bs.take 4 ≠ magic := by
  constructor
  · intro h hmagic
    obtain ⟨x, hx, hlocated⟩ := parse_eq_error.mp h
    rw [eq_magic_append hmagic, read_of_magic] at hx
    rcases readBehindMagic_completable.fails hx with rfl | ⟨left, tag, rfl⟩ <;> cases hlocated
  · intro h
    exact parse_eq_error.mpr ⟨.badMagic, read_of_not_magic hlen h, rfl⟩

/-- The bytes of a class up to a tag that no constant has: the magic number, the versions, the
stored count of the pool, and constants that leave some of its slots.  The tag stands at `place`,
where the next constant would. -/
def MeetsTag (bs : Bytes) (place : Nat) (tag : UInt8) : Prop :=
  ∃ minor major size cs rest, ConstantPool.MeetsTag (UInt16.toNat size - 1) cs tag ∧
    bs = magic ++ Bytes.ofWord16 minor ++ Bytes.ofWord16 major ++ Bytes.ofWord16 size ++
      cs.flatMap Constant.write ++ tag :: rest ∧
    place = 10 + (cs.flatMap Constant.write).length

/-- A tag that is met is met with more bytes behind it too. -/
theorem MeetsTag.append {bs : Bytes} {place : Nat} {tag : UInt8} (h : MeetsTag bs place tag)
    (more : Bytes) : MeetsTag (bs ++ more) place tag := by
  obtain ⟨minor, major, size, cs, rest, hmeets, rfl, hplace⟩ := h
  exact ⟨minor, major, size, cs, rest ++ more, hmeets, by simp, hplace⟩

/-- Four bytes are too few, or they are not the mark. -/
theorem readMagic_eq_error {bs : Bytes} {e : ReadError} (h : readMagic bs = .error e) :
    e = .endOfInput ∨ e = .badMagic := by
  rcases bind_eq_error.mp h with h | ⟨found, rest, -, h⟩
  · have hshort := (Completable.bytes (E := fun _ => False) 4).fails h
    exact .inl (hshort.resolve_right id)
  · split at h
    · cases h
    · cases h
      exact .inr rfl

/-- A tag is reported where the pool meets it. -/
theorem readBehindMagic_eq_unknownTag {bs : Bytes} {left : Nat} {tag : UInt8} :
    readBehindMagic bs = .error (.unknownTag left tag) ↔
      ∃ minor major rest, bs = Bytes.ofWord16 minor ++ (Bytes.ofWord16 major ++ rest) ∧
        ConstantPool.read rest = .error (.unknownTag left tag) := by
  simp only [readBehindMagic, Completable.word16.bind_eq_unknownTag, word16_undoes _ _ _, true_and,
    Completable.eq_unknownTag_of_bind fun _ => readBehindPool_completable _ _ _]
  constructor
  · rintro ⟨minor, _, rfl, major, rest, rfl, h⟩
    exact ⟨minor, major, rest, rfl, h⟩
  · rintro ⟨minor, major, rest, rfl, h⟩
    exact ⟨minor, _, rfl, major, rest, rfl, h⟩

/-- An unknown tag is met behind the mark. -/
theorem read_eq_unknownTag {bs : Bytes} {left : Nat} {tag : UInt8} :
    ClassFile.read bs = .error (.unknownTag left tag) ↔
      ∃ rest, bs = magic ++ rest ∧ readBehindMagic rest = .error (.unknownTag left tag) := by
  rw [read_eq, bind_eq_error]
  constructor
  · rintro (h | ⟨_, rest, hmagic, h⟩)
    · rcases readMagic_eq_error h with h | h <;> cases h
    · exact ⟨rest, readMagic_eq_ok.mp hmagic, h⟩
  · rintro ⟨rest, rfl, h⟩
    exact .inr ⟨(), rest, readMagic_eq_ok.mpr rfl, h⟩

/-- A tag that no constant has is reported at its place. -/
theorem parse_eq_unknownTag {bs : Bytes} {place : Nat} {tag : UInt8} :
    parse bs = .error (.unknownTag place tag) ↔ MeetsTag bs place tag := by
  -- the place is counted from the front, what is left from the tag to the end
  have hplace (minor major size : UInt16) (cs : List Constant) (rest : Bytes) :
      (magic ++ Bytes.ofWord16 minor ++ Bytes.ofWord16 major ++ Bytes.ofWord16 size ++
        cs.flatMap Constant.write ++ tag :: rest).length - (rest.length + 1) =
      10 + (cs.flatMap Constant.write).length := by
    simp only [List.length_append, Bytes.length_ofWord16, List.length_cons, magic, List.length_nil]
    omega
  constructor
  · intro h
    obtain ⟨x, hx, hlocated⟩ := parse_eq_error.mp h
    cases x with
    | badMagic | endOfInput => cases hlocated
    | unknownTag left tag' =>
      obtain ⟨_, rfl, hbehind⟩ := read_eq_unknownTag.mp hx
      obtain ⟨minor, major, _, rfl, hpool⟩ := readBehindMagic_eq_unknownTag.mp hbehind
      obtain ⟨size, cs, rest, hmeets, rfl, rfl⟩ := ConstantPool.read_eq_unknownTag.mp hpool
      simp only [ReadError.located, ClassError.unknownTag.injEq] at hlocated
      obtain ⟨rfl, rfl⟩ := hlocated
      refine ⟨minor, major, size, cs, rest, hmeets, by simp only [List.append_assoc], ?_⟩
      rw [← hplace minor major size cs rest]
      simp only [List.append_assoc]
  · rintro ⟨minor, major, size, cs, rest, hmeets, rfl, rfl⟩
    refine parse_eq_error.mpr ⟨.unknownTag (rest.length + 1) tag, ?_, ?_⟩
    · have hpool := ConstantPool.read_eq_unknownTag.mpr ⟨size, cs, rest, hmeets, rfl, rfl⟩
      have hbehind := readBehindMagic_eq_unknownTag.mpr ⟨minor, major, _, rfl, hpool⟩
      refine read_eq_unknownTag.mpr ⟨_, ?_, hbehind⟩
      simp only [List.append_assoc]
    · rw [ReadError.located, hplace]

/-- Bytes run out exactly if they are the beginning of a class, and no class begins them. -/
theorem parse_eq_endOfInput {bs : Bytes} (hlen : 4 ≤ bs.length) :
    parse bs = .error .endOfInput ↔
      (∃ more c, more ≠ [] ∧ parse (bs ++ more) = .ok c) ∧
        ∀ front c, front <+: bs → parse front ≠ .ok c := by
  constructor
  · intro h
    constructor
    · have hmagic : bs.take 4 = magic := by
        by_cases hmagic : bs.take 4 = magic
        · exact hmagic
        · rw [(parse_eq_badMagic hlen).mpr hmagic] at h
          cases h
      have hread : readBehindMagic (bs.drop 4) = .error .endOfInput := by
        obtain ⟨x, hx, hlocated⟩ := parse_eq_error.mp h
        rw [eq_magic_append hmagic, read_of_magic] at hx
        rcases readBehindMagic_completable.fails hx with rfl | ⟨left, tag, rfl⟩
        · exact hx
        · cases hlocated
      obtain ⟨more, c, hmore⟩ := readBehindMagic_completable.completes hread
      have hparse : parse (bs ++ more) = .ok c := by
        rw [eq_magic_append hmagic, List.append_assoc, parse, read_of_magic, hmore]
      refine ⟨more, c, ?_, hparse⟩
      rintro rfl
      rw [List.append_nil, h] at hparse
      cases hparse
    · rintro front c ⟨back, rfl⟩ hfront
      rw [parse_append hfront] at h
      cases h
  · rintro ⟨⟨more, c, -, hmore⟩, hnone⟩
    cases h : parse bs with
    | ok d => exact absurd h (hnone bs d (List.prefix_refl bs))
    | error e =>
      cases e with
      | endOfInput => rfl
      | badMagic =>
        -- the completed bytes start with the same four
        have hother := (parse_eq_badMagic hlen).mp h
        have hsame : (bs ++ more).take 4 = bs.take 4 := List.take_append_of_le_length hlen
        rw [← hsame, ← parse_eq_badMagic (by rw [List.length_append]; omega), hmore] at hother
        cases hother
      | unknownTag place tag =>
        have hmeets := (parse_eq_unknownTag.mp h).append more
        rw [← parse_eq_unknownTag, hmore] at hmeets
        cases hmeets

/-- Fewer bytes than a class takes are no class. -/
theorem parse_of_prefix {bs front rest : Bytes} {c d : ClassFile}
    (h : ClassFile.read bs = .ok (c, rest)) (hfront : front <+: bs)
    (hd : parse front = .ok d) : bs.length ≤ front.length + rest.length := by
  obtain ⟨back, rfl⟩ := hfront
  obtain ⟨left, hreadable, rfl⟩ := parse_eq_ok.mp hd
  -- the class that is read from the front is the one that is read from all of the bytes
  have hsame := read_undoes.read hreadable (left ++ back)
  rw [← List.append_assoc, h] at hsame
  cases hsame
  simp only [List.length_append]
  omega

end ClassFile

/-- **Truncated classes.** At least four bytes are either those of a class, or they start with
another magic number, or they meet a tag that no constant has where the next constant would
stand, or they ran out.  They ran out exactly if further ones make them a class, and no part at
their front is one already.  A class is read from the same bytes whatever follows them, and never
from fewer. -/
theorem parse_truncated {bs : Bytes} (hlen : 4 ≤ bs.length) :
    ((∃ c, ClassFile.parse bs = .ok c) ∨ ClassFile.parse bs = .error .badMagic ∨
      (∃ place tag, ClassFile.parse bs = .error (.unknownTag place tag)) ∨
      ClassFile.parse bs = .error .endOfInput) ∧
    (ClassFile.parse bs = .error .badMagic ↔ bs.take 4 ≠ [0xCA, 0xFE, 0xBA, 0xBE]) ∧
    (∀ place tag, ClassFile.parse bs = .error (.unknownTag place tag) ↔
      ClassFile.MeetsTag bs place tag) ∧
    (ClassFile.parse bs = .error .endOfInput ↔
      (∃ more c, more ≠ [] ∧ ClassFile.parse (bs ++ more) = .ok c) ∧
        ∀ front c, front <+: bs → ClassFile.parse front ≠ .ok c) ∧
    ∀ c rest, ClassFile.read bs = .ok (c, rest) →
      (∀ more, ClassFile.read (bs ++ more) = .ok (c, rest ++ more) ∧
        ClassFile.parse (bs ++ more) = .ok c) ∧
      ∀ front, front <+: bs → front.length < bs.length - rest.length →
        ∃ e, ClassFile.parse front = .error e := by
  refine ⟨?_, ClassFile.parse_eq_badMagic hlen, fun _ _ => ClassFile.parse_eq_unknownTag,
    ClassFile.parse_eq_endOfInput hlen, ?_⟩
  -- the four outcomes are those of the error that is reported, if any
  · cases h : ClassFile.parse bs with
    | ok c => exact .inl ⟨c, rfl⟩
    | error e =>
      cases e with
      | badMagic => exact .inr (.inl rfl)
      | unknownTag place tag => exact .inr (.inr (.inl ⟨place, tag, rfl⟩))
      | endOfInput => exact .inr (.inr (.inr rfl))
  · intro c rest hread
    constructor
    · intro more
      have hmore := ClassFile.read_undoes.further hread more
      refine ⟨hmore, ?_⟩
      rw [ClassFile.parse, hmore]
    · intro front hfront hshort
      cases hd : ClassFile.parse front with
      | error e => exact ⟨e, rfl⟩
      | ok d =>
        have := ClassFile.parse_of_prefix hread hfront hd
        omega

/-- A class that is cut short in the middle of its second constant, which takes two slots. -/
def cutClass : Bytes :=
  [0xCA, 0xFE, 0xBA, 0xBE, 0, 0, 0, 52, 0, 4, 7, 0, 9, 6, 0x7F, 0xF0, 0]

/-- The same class with a tag in place of the second constant that no constant has. -/
def oddClass : Bytes := [0xCA, 0xFE, 0xBA, 0xBE, 0, 0, 0, 52, 0, 4, 7, 0, 9, 2, 0x7F, 0xF0, 0]

/-- The first one can be completed, and the second one cannot. -/
theorem parse_truncated_cut :
    4 ≤ cutClass.length ∧ 4 ≤ oddClass.length ∧
      ((∃ more c, more ≠ [] ∧ ClassFile.parse (cutClass ++ more) = .ok c) ∧
        ∀ front c, front <+: cutClass → ClassFile.parse front ≠ .ok c) ∧
      ClassFile.MeetsTag oddClass 13 2 ∧
      ¬ ((∃ more c, more ≠ [] ∧ ClassFile.parse (oddClass ++ more) = .ok c) ∧
        ∀ front c, front <+: oddClass → ClassFile.parse front ≠ .ok c) := by
  have hcut : 4 ≤ cutClass.length := by decide
  have hodd : 4 ≤ oddClass.length := by decide
  have hends : ClassFile.parse cutClass = .error .endOfInput := rfl
  have hmeets : ClassFile.parse oddClass = .error (.unknownTag 13 2) := rfl
  obtain ⟨-, -, -, hends_iff, -⟩ := parse_truncated hcut
  obtain ⟨-, -, htag_iff, hcompleted_iff, -⟩ := parse_truncated hodd
  refine ⟨hcut, hodd, hends_iff.mp hends, (htag_iff 13 2).mp hmeets, ?_⟩
  rw [← hcompleted_iff, hmeets]
  exact fun h => by cases h

end Defuse
