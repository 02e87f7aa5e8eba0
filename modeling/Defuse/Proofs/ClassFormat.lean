import Defuse.Class.MethodBody
import Defuse.Proofs.PoolFormat

namespace Defuse

open Reader

/-!
# The format of class files

* `Attribute.IsCounted`, `Member.IsCounted`, `ClassFile.IsCounted` — every stored count is the
  length of the list it counts;
* `ClassFile.IsReadable` — a class as it can be read: its pool is readable, and all lists
  outside the pool are counted;
* `Attribute.read_undoes`, `Member.read_undoes`, `ClassFile.read_undoes`,
  `MethodBody.read_undoes` — reading undoes writing.
-/

/-! ### Attributes and members -/

namespace Attribute

/-- The stored length is that of the data. -/
def IsCounted (a : Attribute) : Prop := a.info.length = a.length.toNat

/-- An attribute is read back from its bytes if its stored length is that of its data. -/
theorem read_undoes : Attribute.read.Undoes IsCounted write := by
  intro bs a rest
  simp only [Attribute.read, bind_eq_ok, word16_undoes _ _ _, word32_undoes _ _ _,
    bytes_undoes _ _ _ _, pure_eq_ok, true_and]
  constructor
  · rintro ⟨nameIndex, _, rfl, length, _, rfl, info, _, ⟨hlen, rfl⟩, rfl, rfl⟩
    exact ⟨hlen, by simp [write]⟩
  · rintro ⟨h, rfl⟩
    exact ⟨_, _, by simp [write, List.append_assoc], _, _, rfl, _, _, ⟨h, rfl⟩, rfl, rfl⟩

/-- An attribute that is made from its data is counted if the format can count these. -/
theorem isCounted_create_iff {nameIndex : UInt16} {info : Bytes} :
    (create nameIndex info).IsCounted ↔ info.length < 2 ^ 32 := by
  show info.length = info.length.toUInt32.toNat ↔ _
  rw [eq_comm, Bytes.toNat_toUInt32_eq_iff]

/-- Six bytes stand in front of the data of an attribute. -/
theorem length_write (a : Attribute) : a.write.length = a.info.length + 6 := by
  simp only [write, List.length_append, Bytes.length_ofWord16, Bytes.length_ofWord32]
  omega

end Attribute

namespace Member

/-- The stored counts of a member, and of its attributes, are right. -/
structure IsCounted (m : Member) : Prop where
  count : m.attributes.length = m.attributesCount.toNat
  attributes : ∀ a ∈ m.attributes, a.IsCounted

/-- A field or method is read back from its bytes if its count is that of its attributes. -/
theorem read_undoes : Member.read.Undoes IsCounted write := by
  intro bs m rest
  simp only [Member.read, bind_eq_ok, word16_undoes _ _ _,
    many_undoes Attribute.read_undoes _ _ _ _, pure_eq_ok, true_and]
  constructor
  · rintro ⟨flags, _, rfl, nameIndex, _, rfl, descriptorIndex, _, rfl, count, _, rfl,
      attributes, _, ⟨⟨hlen, hall⟩, rfl⟩, rfl, rfl⟩
    exact ⟨⟨hlen, hall⟩, by simp [write]⟩
  · rintro ⟨h, rfl⟩
    exact ⟨_, _, by simp [write, List.append_assoc], _, _, rfl, _, _, rfl, _, _, rfl, _, _,
      ⟨⟨h.count, h.attributes⟩, rfl⟩, rfl, rfl⟩

/-- A member whose count is set is counted if the format can count its attributes. -/
theorem isCounted_synchronised_iff {m : Member} :
    m.synchronised.IsCounted ↔ m.attributes.length ≤ 65535 ∧ ∀ a ∈ m.attributes, a.IsCounted := by
  constructor
  · rintro ⟨hcount, hattributes⟩
    have hfits : m.attributes.length < 2 ^ 16 := Bytes.toNat_toUInt16_eq_iff.mp hcount.symm
    exact ⟨Nat.lt_succ_iff.mp hfits, hattributes⟩
  · rintro ⟨hlength, hattributes⟩
    exact ⟨(Bytes.toNat_toUInt16_eq_iff.mpr (Nat.lt_succ_of_le hlength)).symm, hattributes⟩

end Member

/-! ### Classes -/

namespace ClassFile

/-- The stored counts outside the pool are right. -/
structure ListsCounted (c : ClassFile) : Prop where
  interfaces : c.interfaces.length = c.interfacesCount.toNat
  fieldsCount : c.fields.length = c.fieldsCount.toNat
  fields : ∀ m ∈ c.fields, m.IsCounted
  methodsCount : c.methods.length = c.methodsCount.toNat
  methods : ∀ m ∈ c.methods, m.IsCounted
  attributesCount : c.attributes.length = c.attributesCount.toNat
  attributes : ∀ a ∈ c.attributes, a.IsCounted

/-- Every stored count is the length of the list it counts. -/
structure IsCounted (c : ClassFile) : Prop where
  pool : c.pool.IsCounted
  lists : c.ListsCounted

/-- A class as it can be read. -/
structure IsReadable (c : ClassFile) : Prop where
  pool : c.pool.IsReadable
  lists : c.ListsCounted

/-- The mark in front of a class is read off the bytes that it consists of. -/
theorem readMagic_eq_ok {bs rest : Bytes} {u : Unit} :
    readMagic bs = .ok (u, rest) ↔ bs = magic ++ rest := by
  simp only [readMagic, bind_eq_ok, bytes_undoes _ _ _ _]
  constructor
  · rintro ⟨found, _, ⟨hlen, rfl⟩, h⟩
    split at h
    · next hmagic =>
      rw [pure_eq_ok] at h
      rw [← h.2, hmagic]
      rfl
    · cases h
  · rintro rfl
    exact ⟨magic, rest, ⟨rfl, rfl⟩, rfl⟩

/-- Reading a class undoes writing it. -/
theorem read_undoes : ClassFile.read.Undoes IsReadable write := by
  intro bs c rest
  simp only [ClassFile.read, bind_eq_ok, readMagic_eq_ok, word16_undoes _ _ _,
    ConstantPool.read_undoes _ _ _, many_undoes word16_undoes _ _ _ _,
    many_undoes Member.read_undoes _ _ _ _, many_undoes Attribute.read_undoes _ _ _ _,
    pure_eq_ok, true_and]
  constructor
  -- each equation takes one field off the front of the bytes, in the order of the format
  · rintro ⟨_, _, e, minor, _, e₁, major, _, e₂, pool, _, ⟨hpool, e₃⟩, flags, _, e₄,
      thisClass, _, e₅, superClass, _, e₆, interfacesCount, _, e₇,
      interfaces, _, ⟨⟨hinterfaces, -⟩, e₈⟩, fieldsCount, _, e₉,
      fields, _, ⟨⟨hfields, allFields⟩, e₁₀⟩, methodsCount, _, e₁₁,
      methods, _, ⟨⟨hmethods, allMethods⟩, e₁₂⟩, attributesCount, _, e₁₃,
      attributes, _, ⟨⟨hattributes, allAttributes⟩, e₁₄⟩, rfl, rfl⟩
    refine ⟨⟨hpool, ⟨hinterfaces, hfields, allFields, hmethods, allMethods, hattributes,
      allAttributes⟩⟩, ?_⟩
    simp only [e, e₁, e₂, e₃, e₄, e₅, e₆, e₇, e₈, e₉, e₁₀, e₁₁, e₁₂, e₁₃, e₁₄, write,
      List.append_assoc]
  · rintro ⟨⟨hpool, h⟩, rfl⟩
    exact ⟨(), _, by simp only [write, List.append_assoc], _, _, rfl, _, _, rfl,
      _, _, ⟨hpool, rfl⟩, _, _, rfl, _, _, rfl, _, _, rfl, _, _, rfl,
      _, _, ⟨⟨h.interfaces, fun _ _ => trivial⟩, rfl⟩, _, _, rfl,
      _, _, ⟨⟨h.fieldsCount, h.fields⟩, rfl⟩, _, _, rfl,
      _, _, ⟨⟨h.methodsCount, h.methods⟩, rfl⟩, _, _, rfl,
      _, _, ⟨⟨h.attributesCount, h.attributes⟩, rfl⟩, rfl, rfl⟩

/-- A class is read from what it is written to, whatever follows. -/
theorem parse_eq_ok {bs : Bytes} {c : ClassFile} :
    parse bs = .ok c ↔ ∃ rest, c.IsReadable ∧ bs = c.write ++ rest := by
  simp only [parse, ← read_undoes _ _ _]
  cases read bs with
  | error e => simp
  | ok p =>
    obtain ⟨d, rest⟩ := p
    simp

/-- A class as it can be read is read back from its bytes. -/
theorem IsReadable.parse_write {c : ClassFile} (h : c.IsReadable) : parse c.write = .ok c :=
  parse_eq_ok.mpr ⟨[], h, (List.append_nil _).symm⟩

/-- A class is written if the format has room for its constants. -/
theorem toBytes_eq_ok {c : ClassFile} {out : Bytes} :
    c.toBytes = .ok out ↔ c.pool.isWritable = true ∧ c.write = out := by
  unfold toBytes
  split <;> simp [*]

/-- A class is not written if the format has no room for some constant. -/
theorem toBytes_fails {c : ClassFile} :
    (∃ e, c.toBytes = .error e) ↔ c.pool.isWritable = false := by
  unfold toBytes
  cases c.pool.isWritable with
  | true => simp
  | false => exact ⟨fun _ => rfl, fun _ => ⟨.textTooLong, rfl⟩⟩

/-- Behind the magic number and the versions stands the stored count of the pool. -/
theorem storedSize_bytes (c : ClassFile) (rest : Bytes) :
    ((c.write ++ rest).drop 8).take 2 = Bytes.ofWord16 c.pool.storedSize := by
  simp [write, magic, ConstantPool.write, Bytes.ofWord16]

/-- A class with right counts is read back from its bytes. -/
theorem IsCounted.isReadable {c : ClassFile} (h : c.IsCounted) (hlaid : c.pool.IsLaidOut)
    (hfits : c.pool.isWritable = true) : c.IsReadable where
  pool :=
    { laidOut := hlaid
      fills := by
        have hlen : c.pool.storedSize.toNat - 1 =
            (c.pool.entries.flatMap Constant.slots).length := by
          rw [← hlaid, h.pool]
          omega
        rw [hlen]
        exact ConstantPool.fills_length _
      writable := hfits }
  lists := h.lists

end ClassFile

/-! ### Method bodies -/

/-- An exception handler is read back from its bytes. -/
theorem Handler.read_undoes : Handler.read.Undoes (fun _ => True) write := by
  intro bs h rest
  simp only [Handler.read, bind_eq_ok, word16_undoes _ _ _, pure_eq_ok, true_and]
  constructor
  · rintro ⟨start, _, rfl, stop, _, rfl, target, _, rfl, caught, _, rfl, rfl, rfl⟩
    simp [write]
  · rintro rfl
    exact ⟨_, _, by simp only [write, List.append_assoc], _, _, rfl, _, _, rfl, _, _, rfl, rfl,
      rfl⟩

namespace MethodBody

/-- A body that can be read: its lists are short enough to be counted. -/
structure IsReadable (b : MethodBody) : Prop where
  code : b.code.length < 2 ^ 32
  handlers : b.handlers.length < 2 ^ 16
  count : b.attributes.length < 2 ^ 16
  attributes : ∀ a ∈ b.attributes, a.IsCounted

/-- Reading a body undoes writing it. -/
theorem read_undoes : MethodBody.read.Undoes IsReadable write := by
  intro bs b rest
  simp only [MethodBody.read, bind_eq_ok, word16_undoes _ _ _, word32_undoes _ _ _,
    bytes_undoes _ _ _ _, many_undoes Handler.read_undoes _ _ _ _,
    many_undoes Attribute.read_undoes _ _ _ _, pure_eq_ok, true_and]
  -- the counts in the bytes are the lengths of the lists, in both directions
  constructor
  · rintro ⟨maxStack, _, rfl, maxLocals, _, rfl, codeLength, _, rfl, code, _, ⟨hcode, rfl⟩,
      handlersCount, _, rfl, handlers, _, ⟨⟨hhandlers, -⟩, rfl⟩, attributesCount, _, rfl,
      attributes, _, ⟨⟨hattributes, hall⟩, rfl⟩, rfl, rfl⟩
    refine ⟨⟨hcode ▸ codeLength.toNat_lt, hhandlers ▸ handlersCount.toNat_lt,
      hattributes ▸ attributesCount.toNat_lt, hall⟩, ?_⟩
    simp [write, hcode, hhandlers, hattributes]
  · rintro ⟨h, rfl⟩
    have hcode := Bytes.toNat_toUInt32_eq_iff.mpr h.code
    have hhandlers := Bytes.toNat_toUInt16_eq_iff.mpr h.handlers
    have hattributes := Bytes.toNat_toUInt16_eq_iff.mpr h.count
    exact ⟨_, _, by simp only [write, List.append_assoc]; rfl, _, _, rfl, _, _, rfl,
      b.code, _, ⟨hcode.symm, rfl⟩, _, _, rfl,
      _, _, ⟨⟨hhandlers.symm, fun _ _ => trivial⟩, rfl⟩, _, _, rfl,
      _, _, ⟨⟨hattributes.symm, h.attributes⟩, rfl⟩, rfl, rfl⟩

/-- A method body is read from what it is written to, whatever follows. -/
theorem parse_eq_ok {info : Bytes} {b : MethodBody} :
    parse info = .ok b ↔ ∃ rest, b.IsReadable ∧ info = b.write ++ rest := by
  simp only [parse, ← read_undoes _ _ _]
  cases read info with
  | error e => simp
  | ok p =>
    obtain ⟨d, rest⟩ := p
    simp

end MethodBody

end Defuse
