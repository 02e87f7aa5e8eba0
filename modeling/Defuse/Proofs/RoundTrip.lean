import Defuse.Proofs.ClassFormat

namespace Defuse

/-!
# Bytes of a class, read and written

* `toBytes_parse` — a class that was read is written back as the bytes that it was read from,
  and these are read as the same class;
* `strangeClass` — this holds of classes that no compiler writes as well: texts that are no
  texts, floats that are no numbers, flags without a meaning, pools that overrun their count
  or that store none.
-/

/-- **Exact round trip.** A class that was read can be written, as exactly the bytes that
reading took; from these alone the same class is read, and nothing is left. -/
theorem toBytes_parse {bytes : Bytes} {c : ClassFile} (h : ClassFile.parse bytes = .ok c) :
    ∃ taken rest, bytes = taken ++ rest ∧ ClassFile.read bytes = .ok (c, rest) ∧
      c.toBytes = .ok taken ∧ ClassFile.read taken = .ok (c, []) ∧
      ClassFile.parse taken = .ok c := by
  obtain ⟨rest, hreadable, rfl⟩ := ClassFile.parse_eq_ok.mp h
  have hread : ClassFile.read (c.write ++ rest) = .ok (c, rest) :=
    ClassFile.read_undoes.read hreadable rest
  have hagain : ClassFile.read c.write = .ok (c, []) := ClassFile.read_undoes.read_all hreadable
  have hwrite : c.toBytes = .ok c.write :=
    ClassFile.toBytes_eq_ok.mpr ⟨hreadable.pool.writable, rfl⟩
  exact ⟨c.write, rest, rfl, hread, hwrite, hagain, hreadable.parse_write⟩

/-! ### Classes that no compiler writes -/

/-- A class with flags that have no meaning, of which only the pool is open. -/
def strangeClass (pool : ConstantPool) : ClassFile where
  minor := 0xFFFF
  major := 0
  pool
  flags := 0xFFFF
  thisClass := 7
  superClass := 0
  interfacesCount := 1
  interfaces := [0xFFFF]
  fieldsCount := 0
  fields := []
  methodsCount := 1
  methods := [⟨0xFFFF, 0, 9, 1, [⟨0, 3, [1, 2, 3]⟩]⟩]
  attributesCount := 0
  attributes := []

/-- The counts in the class of the example are right, whichever pool it has. -/
theorem strangeClass_isReadable {pool : ConstantPool} (hpool : pool.IsReadable) :
    (strangeClass pool).IsReadable where
  pool := hpool
  lists :=
    { interfaces := rfl
      fieldsCount := rfl
      fields := List.forall_mem_nil _
      methodsCount := rfl
      methods := by
        intro m hm
        rw [List.mem_singleton.mp hm]
        refine ⟨rfl, ?_⟩
        intro a ha
        rw [List.mem_singleton.mp ha]
        rfl
      attributesCount := rfl
      attributes := List.forall_mem_nil _ }

/-- A text that ends in the middle of a character, a float that is no number, and a wide
constant in the last slot that the stored count has room for. -/
def overrunPool : ConstantPool where
  storedSize := 4
  slots := [.utf8 [0xE2, 0x82], .float 0x7FA00001, .double 0xFFF0000000000001, .unusable]

/-- The pool of the example can be read: its last constant runs over the declared size. -/
theorem overrunPool_isReadable : overrunPool.IsReadable where
  laidOut := rfl
  fills := trivial
  writable := rfl

/-- A pool that stores no count, not even that of an empty one. -/
def uncountedPool : ConstantPool := ⟨0, []⟩

theorem uncountedPool_isReadable : uncountedPool.IsReadable where
  laidOut := rfl
  fills := trivial
  writable := rfl

/-- The class of the example is read back from its bytes, whatever follows. -/
theorem parse_strangeClass {pool : ConstantPool} (hpool : pool.IsReadable) (rest : Bytes) :
    ClassFile.parse ((strangeClass pool).write ++ rest) = .ok (strangeClass pool) :=
  ClassFile.parse_eq_ok.mpr ⟨rest, strangeClass_isReadable hpool, rfl⟩

/-- A class with the first pool, in front of other bytes, and one with the second pool. -/
theorem toBytes_parse_strange :
    (∃ taken rest, (strangeClass overrunPool).write ++ [0xCA, 0xFE] = taken ++ rest ∧
      ClassFile.read ((strangeClass overrunPool).write ++ [0xCA, 0xFE]) =
        .ok (strangeClass overrunPool, rest) ∧
      (strangeClass overrunPool).toBytes = .ok taken ∧
      ClassFile.read taken = .ok (strangeClass overrunPool, []) ∧
      ClassFile.parse taken = .ok (strangeClass overrunPool)) ∧
    ∃ taken rest, (strangeClass uncountedPool).write ++ [] = taken ++ rest ∧
      ClassFile.read ((strangeClass uncountedPool).write ++ []) =
        .ok (strangeClass uncountedPool, rest) ∧
      (strangeClass uncountedPool).toBytes = .ok taken ∧
      ClassFile.read taken = .ok (strangeClass uncountedPool, []) ∧
      ClassFile.parse taken = .ok (strangeClass uncountedPool) :=
  ⟨toBytes_parse (parse_strangeClass overrunPool_isReadable _),
    toBytes_parse (parse_strangeClass uncountedPool_isReadable _)⟩

end Defuse
