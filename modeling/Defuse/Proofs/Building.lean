import Defuse.Proofs.ClassFormat
import Defuse.Proofs.PoolGrowth

namespace Defuse

open ConstantPool

/-!
# Classes that are built

A class is built from an empty one by asking its pool for constants and by appending to its
lists.  Only the counts outside the pool fall behind, until they are set in the end.

* `ClassFile.Change`, `ClassFile.build` — the changes that a class is built by;
* `ClassFile.IsBuilt` — what these keep: the pool is in order, and every attribute has the
  length of its data;
* `ClassFile.ListsFit` — the format can count every list outside the pool;
* `ClassFile.IsBuilt.isCounted_synchronised` — then the counts that are set in the end are
  right;
* `parse_build` — such a class is read back from its bytes.
-/

/-! ### Pools -/

namespace ConstantPool

/-- A pool as adding constants to an empty one leaves it. -/
structure InOrder (p : ConstantPool) : Prop where
  laidOut : p.IsLaidOut
  counted : p.IsCounted
  room : p.slots.length ≤ maxIndex

theorem inOrder_empty : InOrder .empty where
  laidOut := rfl
  counted := rfl
  room := Nat.zero_le _

/-- Adding constants keeps a pool in order. -/
theorem Grown.inOrder {p q : ConstantPool} (h : Grown p q) (hp : p.InOrder) : q.InOrder := by
  rcases h.room with rfl | ⟨hcounted, hroom⟩
  · exact hp
  · exact ⟨h.laidOut hp.laidOut, hcounted, hroom⟩

end ConstantPool

/-! ### Changes -/

/-- The attribute was made from its data. -/
def Attribute.IsMade (a : Attribute) : Prop := a = .create a.nameIndex a.info

/-- The attributes of a member were made from their data. -/
def Member.IsMade (m : Member) : Prop := ∀ a ∈ m.attributes, a.IsMade

/-- The member with one more attribute, which the stored count does not know of. -/
def Member.push (m : Member) (a : Attribute) : Member :=
  { m with attributes := m.attributes ++ [a] }

namespace ClassFile

/-- What a class can be built by. -/
inductive Change where
  /-- The pool is asked for a constant, and keeps what it has added even if it refuses. -/
  | constant (wanted : Request)
  | interface (index : UInt16)
  | field (m : Member) (made : m.IsMade)
  | method (m : Member) (made : m.IsMade)
  | classAttribute (nameIndex : UInt16) (info : Bytes)
  /-- The field at a position, if there is one, gets an attribute. -/
  | fieldAttribute (position : Nat) (nameIndex : UInt16) (info : Bytes)
  /-- The method at a position, if there is one, gets an attribute. -/
  | methodAttribute (position : Nat) (nameIndex : UInt16) (info : Bytes)

/-- The class after a change. -/
def changed (c : ClassFile) : Change → ClassFile
  | .constant wanted => { c with pool := (outcome wanted.edit c.pool).2 }
  | .interface index => { c with interfaces := c.interfaces ++ [index] }
  | .field m _ => { c with fields := c.fields ++ [m] }
  | .method m _ => { c with methods := c.methods ++ [m] }
  | .classAttribute n info => { c with attributes := c.attributes ++ [.create n info] }
  | .fieldAttribute i n info => { c with fields := c.fields.modify i (·.push (.create n info)) }
  | .methodAttribute i n info =>
    { c with methods := c.methods.modify i (·.push (.create n info)) }

/-- The class after changes, one after the other. -/
def build (c : ClassFile) (changes : List Change) : ClassFile := changes.foldl changed c

/-! ### What building keeps -/

/-- What is true of a class while it is built. -/
structure IsBuilt (c : ClassFile) : Prop where
  pool : c.pool.InOrder
  fields : ∀ m ∈ c.fields, m.IsMade
  methods : ∀ m ∈ c.methods, m.IsMade
  attributes : ∀ a ∈ c.attributes, a.IsMade

end ClassFile

theorem Attribute.isMade_create (nameIndex : UInt16) (info : Bytes) :
    (Attribute.create nameIndex info).IsMade := rfl

/-- What holds of all elements of a list, and of one more, holds of the list with it. -/
theorem forall_mem_push {α : Type} {P : α → Prop} {as : List α} {a : α} (has : ∀ x ∈ as, P x)
    (ha : P a) : ∀ x ∈ as ++ [a], P x := by
  simpa only [List.forall_mem_append, List.forall_mem_singleton] using ⟨has, ha⟩

/-- A method that was made stays so with one more attribute that was made. -/
theorem Member.IsMade.push {m : Member} (h : m.IsMade) {a : Attribute} (ha : a.IsMade) :
    (m.push a).IsMade :=
  forall_mem_push h ha

/-- Members to one of which an attribute is added. -/
theorem Member.isMade_modify {ms : List Member} (h : ∀ m ∈ ms, m.IsMade) (position : Nat)
    {a : Attribute} (ha : a.IsMade) : ∀ m ∈ ms.modify position (·.push a), m.IsMade := by
  intro m hm
  obtain ⟨i, hi⟩ := List.mem_iff_getElem?.mp hm
  rw [List.getElem?_modify] at hi
  obtain ⟨old, hold, rfl⟩ := Option.map_eq_some_iff.mp hi
  have hmade : old.IsMade := h old (List.mem_of_getElem? hold)
  split
  · exact hmade.push ha
  · exact hmade

namespace ClassFile

/-- An empty class. -/
theorem isBuilt_create {thisName superName : String} {start : ClassFile}
    (h : create thisName superName = .ok start) : start.IsBuilt := by
  -- both names are asked for in one edit of the empty pool
  have hstable : Stable (do
      let thisClass ← className thisName
      let superClass ← className superName
      return (thisClass, superClass) : Edit (UInt16 × UInt16)) :=
    (Stable.className thisName).bind fun _ => (Stable.className superName).bind fun _ => .pure _
  unfold create at h
  dsimp only at h
  split at h
  · cases h
  · next hrun =>
    cases h
    exact ⟨(hstable.grown hrun).inOrder inOrder_empty, List.forall_mem_nil _,
      List.forall_mem_nil _, List.forall_mem_nil _⟩

/-- One change. -/
theorem IsBuilt.changed {c : ClassFile} (h : c.IsBuilt) (change : Change) :
    (c.changed change).IsBuilt := by
  cases change with
  | constant wanted =>
    -- also a request that is refused leaves a pool that has only grown
    have hgrown : Grown c.pool (outcome wanted.edit c.pool).2 := wanted.stable.grows c.pool
    exact { h with pool := hgrown.inOrder h.pool }
  | interface index => exact { h with }
  | field m made => exact { h with fields := forall_mem_push h.fields made }
  | method m made => exact { h with methods := forall_mem_push h.methods made }
  | classAttribute n info =>
    exact { h with attributes := forall_mem_push h.attributes (Attribute.isMade_create n info) }
  | fieldAttribute i n info =>
    exact { h with fields := Member.isMade_modify h.fields i (Attribute.isMade_create n info) }
  | methodAttribute i n info =>
    exact { h with methods := Member.isMade_modify h.methods i (Attribute.isMade_create n info) }

/-- Any number of changes. -/
theorem IsBuilt.build {c : ClassFile} (h : c.IsBuilt) (changes : List Change) :
    (c.build changes).IsBuilt := by
  -- for every class that the changes start from, since the first change makes another one
  induction changes generalizing c with
  | nil => exact h
  | cons change changes ih => exact ih (h.changed change)

end ClassFile

/-! ### Counts -/

/-- The format can count the attributes of a member, and the data of each. -/
structure Member.Fits (m : Member) : Prop where
  count : m.attributes.length ≤ 65535
  attributes : ∀ a ∈ m.attributes, a.info.length < 2 ^ 32

/-- The format can count every list outside the pool. -/
structure ClassFile.ListsFit (c : ClassFile) : Prop where
  interfaces : c.interfaces.length ≤ 65535
  fieldsCount : c.fields.length ≤ 65535
  fields : ∀ m ∈ c.fields, m.Fits
  methodsCount : c.methods.length ≤ 65535
  methods : ∀ m ∈ c.methods, m.Fits
  attributesCount : c.attributes.length ≤ 65535
  attributes : ∀ a ∈ c.attributes, a.info.length < 2 ^ 32

/-- The stored length of an attribute is that of its data. -/
theorem Attribute.IsMade.isCounted {a : Attribute} (h : a.IsMade) (hfit : a.info.length < 2 ^ 32) :
    a.IsCounted := by
  have hcounted : (create a.nameIndex a.info).IsCounted := isCounted_create_iff.mpr hfit
  rwa [← h] at hcounted

/-- A count that is set is the length of its list. -/
theorem length_eq_count {α : Type} {as : List α} (h : as.length ≤ 65535) :
    as.length = as.length.toUInt16.toNat :=
  (Bytes.toNat_toUInt16_eq_iff.mpr (Nat.lt_succ_of_le h)).symm

/-- Members whose counts are set. -/
theorem Member.isCounted_synchronised {ms : List Member} (hmade : ∀ m ∈ ms, m.IsMade)
    (hfits : ∀ m ∈ ms, m.Fits) : ∀ m ∈ ms.map Member.synchronised, m.IsCounted := by
  intro m hm
  obtain ⟨old, hold, rfl⟩ := List.mem_map.mp hm
  have hfit : old.Fits := hfits old hold
  refine isCounted_synchronised_iff.mpr ⟨hfit.count, ?_⟩
  intro a ha
  exact (hmade old hold a ha).isCounted (hfit.attributes a ha)

namespace ClassFile

/-- The counts of a built class are right once they are set. -/
theorem IsBuilt.isCounted_synchronised {c : ClassFile} (h : c.IsBuilt) (hfit : c.ListsFit) :
    c.synchronised.IsCounted where
  -- each count is the length of its list, which fits by assumption
  pool := by
    have hroom := h.pool.room
    simp only [maxIndex] at hroom
    exact Bytes.toNat_toUInt16_eq_iff.mpr (by omega)
  lists :=
    { interfaces := length_eq_count hfit.interfaces
      fieldsCount := by
        show (c.fields.map Member.synchronised).length = _
        rw [List.length_map]
        exact length_eq_count hfit.fieldsCount
      fields := Member.isCounted_synchronised h.fields hfit.fields
      methodsCount := by
        show (c.methods.map Member.synchronised).length = _
        rw [List.length_map]
        exact length_eq_count hfit.methodsCount
      methods := Member.isCounted_synchronised h.methods hfit.methods
      attributesCount := length_eq_count hfit.attributesCount
      attributes := fun a ha => (h.attributes a ha).isCounted (hfit.attributes a ha) }

end ClassFile

/-- **Reading what was built.** A class that was built, and whose counts were then set, cannot
be written exactly if some text in its pool is too long; otherwise it is read back from its
bytes as it was. -/
theorem parse_build {thisName superName : String} {start c : ClassFile}
    {changes : List ClassFile.Change} (hstart : ClassFile.create thisName superName = .ok start)
    (hc : start.build changes = c) (hfit : c.ListsFit) :
    ((∃ e, c.synchronised.toBytes = .error e) ↔
      ∃ text, .utf8 text ∈ c.synchronised.pool.slots ∧ 65535 < text.length) ∧
    ∀ out, c.synchronised.toBytes = .ok out →
      ClassFile.parse out = .ok c.synchronised ∧
        ClassFile.read out = .ok (c.synchronised, []) := by
  have hbuilt : c.IsBuilt := hc ▸ (ClassFile.isBuilt_create hstart).build changes
  have hcounted : c.synchronised.IsCounted := hbuilt.isCounted_synchronised hfit
  have hlaid : c.synchronised.pool.IsLaidOut := hbuilt.pool.laidOut
  constructor
  · rw [ClassFile.toBytes_fails, isWritable_eq_false_iff]
  · intro out hout
    obtain ⟨hwritable, rfl⟩ := ClassFile.toBytes_eq_ok.mp hout
    have hreadable := hcounted.isReadable hlaid hwritable
    exact ⟨hreadable.parse_write, ClassFile.read_undoes.read_all hreadable⟩

/-! ### A class with one field -/

/-- The empty class of a name. -/
def emptyClass : ClassFile :=
  { minor := 0, major := 52
    pool :=
      { storedSize := 5
        slots := [.utf8 (Text.ModifiedUtf8.encode "p/Counter"), .className 1,
          .utf8 (Text.ModifiedUtf8.encode "java/lang/Object"), .className 3] }
    flags := 0x0021, thisClass := 2, superClass := 4, interfacesCount := 0, interfaces := []
    fieldsCount := 0, fields := [], methodsCount := 0, methods := []
    attributesCount := 0, attributes := [] }

theorem create_emptyClass : ClassFile.create "p/Counter" "java/lang/Object" = .ok emptyClass :=
  rfl

/-- A field whose descriptor stands behind a wide constant.  Its stored count is wrong, nothing
has the number of one attribute's name, and there is no method for the last attribute. -/
def counterChanges : List ClassFile.Change :=
  [.constant (.long (-1)), .constant (.utf8 "J"), .interface 2,
    .field ⟨0x0019, 1, 7, 0, [.create 7 [0, 5]]⟩ (List.forall_mem_singleton.mpr rfl),
    .fieldAttribute 0 9 [], .classAttribute 1 [1, 2, 3], .methodAttribute 0 1 []]

/-- The lists of the example are short. -/
theorem counter_listsFit : (emptyClass.build counterChanges).ListsFit where
  interfaces := by decide
  fieldsCount := by decide
  fields := by
    intro m hm
    rw [List.mem_singleton.mp hm]
    exact ⟨by decide, by decide⟩
  methodsCount := by decide
  methods := List.forall_mem_nil _
  attributesCount := by decide
  attributes := by decide

/-- The class with this field is read back with the counts that were set. -/
theorem parse_build_counter :
    ∃ out, (emptyClass.build counterChanges).synchronised.toBytes = .ok out ∧
      ClassFile.parse out = .ok (emptyClass.build counterChanges).synchronised := by
  refine ⟨_, rfl, ?_⟩
  exact ((parse_build create_emptyClass rfl counter_listsFit).2 _ rfl).1

end Defuse
