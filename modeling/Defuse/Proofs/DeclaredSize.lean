import Defuse.Proofs.PoolInvariant
import Defuse.Proofs.RoundTrip

namespace Defuse

open ConstantPool

/-!
# The slots that a stored count declares

Reading stops once there are enough slots, but it takes one or two of them at a time.

* `ConstantPool.declared` — the number of slots that the stored count has room for;
* `ConstantPool.EndsWide` — a wide constant stands in the last of them;
* `ConstantPool.IsReadable.length_eq_iff` — this is the one way to come to another number of
  slots, and with a count of zero the one way to a wrong count
  (`ConstantPool.IsReadable.isCounted_iff`);
* `declared_slots` — of a pool that was read, wide constants have their second slots, and if none
  stands in the last slot, the slots are those that are declared;
* `parse_undeclared` — two classes that are read though their counts are wrong.
-/

namespace ConstantPool

/-- The number of slots that the stored count has room for; a count of zero has room for none. -/
def declared (p : ConstantPool) : Nat := p.storedSize.toNat - 1

/-- A wide constant stands in the last of the declared slots, so that its second slot is behind
them. -/
def EndsWide (p : ConstantPool) : Prop :=
  ∃ c, p.slots[p.declared - 1]? = some c ∧ c.isWide = true

/-! ### The last slot -/

/-- No constant fits where no slot is left. -/
theorem Fills.eq_nil {cs : List Constant} (h : Fills cs 0) : cs = [] := by
  cases cs with
  | nil => rfl
  | cons c cs => exact h.elim

/-- Constants that overrun the slots that they are to fill have a wide one in the last of
these. -/
theorem Fills.exists_wide {cs : List Constant} {n : Nat} (h : Fills cs n)
    (hlen : (cs.flatMap Constant.slots).length = n + 1) :
    ∃ c, (cs.flatMap Constant.slots)[n - 1]? = some c ∧ c.isWide = true := by
  -- by induction on the constants: each of them leaves fewer slots to those behind it
  induction cs generalizing n with
  | nil => simp at hlen
  | cons c cs ih =>
    cases n with
    | zero => exact h.elim
    | succ n =>
      have hrest : Fills cs (n + 1 - c.slots.length) := h
      rw [List.flatMap_cons, List.length_append] at hlen
      rw [List.flatMap_cons]
      by_cases hroom : c.slots.length < n + 1
      · -- the constants behind this one overrun what it leaves
        obtain ⟨d, hd, hwide⟩ := ih hrest (by omega)
        have hindex : n + 1 - 1 - c.slots.length = n + 1 - c.slots.length - 1 := by omega
        rw [List.getElem?_append_right (by omega), hindex]
        exact ⟨d, hd, hwide⟩
      · -- nothing is left, so this one is the last, and takes a slot too many
        have hleft : n + 1 - c.slots.length = 0 := by omega
        rw [hleft] at hrest
        obtain rfl := hrest.eq_nil
        rw [List.flatMap_nil, List.length_nil] at hlen
        have hwide : c.isWide = true := by
          apply Decidable.byContradiction
          intro hnarrow
          rw [Constant.length_slots, if_neg hnarrow] at hlen
          omega
        have hzero : n = 0 := by
          rw [Constant.length_slots, if_pos hwide] at hlen
          omega
        exact ⟨c, by simp [Constant.slots, hwide, hzero], hwide⟩

namespace IsReadable

variable {p : ConstantPool}

/-- Only the last constant overruns the declared slots, and by no more than one slot. -/
theorem declared_le (h : p.IsReadable) :
    p.declared ≤ p.slots.length ∧ p.slots.length ≤ p.declared + 1 := by
  have hlen := h.fills.length_le
  rw [← h.laidOut] at hlen
  exact hlen

/-- There are as many slots as are declared, unless a wide constant stands in the last one. -/
theorem length_eq_iff (h : p.IsReadable) : p.slots.length = p.declared ↔ ¬ p.EndsWide := by
  obtain ⟨hleast, hmost⟩ := h.declared_le
  constructor
  · -- the second slot of that constant would be one too many
    rintro hlen ⟨c, hc, hwide⟩
    obtain ⟨hlt, -⟩ := List.getElem?_eq_some_iff.mp hc
    obtain ⟨hsecond, -⟩ := List.getElem?_eq_some_iff.mp (h.laidOut.isPaired.wide hc hwide)
    omega
  · intro hends
    apply Decidable.byContradiction
    intro hlen
    have hover : (p.entries.flatMap Constant.slots).length = p.declared + 1 := by
      rw [← h.laidOut]
      omega
    obtain ⟨c, hc, hwide⟩ := h.fills.exists_wide hover
    rw [← h.laidOut] at hc
    exact hends ⟨c, hc, hwide⟩

/-- The stored count is right, unless it is zero or a wide constant stands in the last slot that
it has room for. -/
theorem isCounted_iff (h : p.IsReadable) : p.IsCounted ↔ p.storedSize ≠ 0 ∧ ¬ p.EndsWide := by
  have hzero : p.storedSize = 0 ↔ p.storedSize.toNat = 0 := by
    rw [← UInt16.toNat_inj]
    rfl
  have hdeclared : p.declared = p.storedSize.toNat - 1 := rfl
  rw [← h.length_eq_iff, Ne, hzero, IsCounted]
  constructor
  · intro hcounted
    omega
  · rintro ⟨hpos, hlen⟩
    omega

end IsReadable

end ConstantPool

/-- **Declared slots.** In the pool of a class that was read, every wide constant has its second
slot.  If none stands in the last slot that the stored count has room for, the slots are exactly
those that it has room for, and every second slot is among them. -/
theorem declared_slots {bytes : Bytes} {c : ClassFile} (h : ClassFile.parse bytes = .ok c) :
    (∀ k d, c.pool.slots[k]? = some d → d.isWide = true →
      c.pool.slots[k + 1]? = some .unusable) ∧
    (¬ c.pool.EndsWide → c.pool.slots.length = c.pool.declared ∧
      ∀ k d, c.pool.slots[k]? = some d → d.isWide = true → k + 1 < c.pool.declared) := by
  obtain ⟨rest, hreadable, -⟩ := ClassFile.parse_eq_ok.mp h
  have hpaired : IsPaired c.pool.slots := hreadable.pool.laidOut.isPaired
  refine ⟨fun k d hd hwide => hpaired.wide hd hwide, ?_⟩
  intro hends
  have hlen := hreadable.pool.length_eq_iff.mpr hends
  refine ⟨hlen, ?_⟩
  intro k d hd hwide
  obtain ⟨hlt, -⟩ := List.getElem?_eq_some_iff.mp (hpaired.wide hd hwide)
  rw [← hlen]
  exact hlt

/-- A pool with a wide constant in front of a text. -/
def widePool : ConstantPool where
  storedSize := 4
  slots := [.long 7, .unusable, .utf8 [0x61]]

theorem widePool_isReadable : widePool.IsReadable where
  laidOut := rfl
  fills := trivial
  writable := rfl

/-- The law at a wide constant: the unusable slot behind it lies inside the declared size. -/
theorem declared_slots_wide :
    ClassFile.parse (strangeClass widePool).write = .ok (strangeClass widePool) ∧
      widePool.slots[1]? = some .unusable ∧ ¬ widePool.EndsWide ∧
      widePool.slots.length = widePool.declared ∧ 0 + 1 < widePool.declared := by
  have hparse := (strangeClass_isReadable widePool_isReadable).parse_write
  have hends : ¬ widePool.EndsWide := by
    rintro ⟨d, hd, hwide⟩
    cases hd
    cases hwide
  obtain ⟨hpairs, hdeclared⟩ := declared_slots hparse
  obtain ⟨hlen, hinside⟩ := hdeclared hends
  exact ⟨hparse, hpairs 0 (.long 7) rfl rfl, hends, hlen, hinside 0 (.long 7) rfl rfl⟩

/-- **Other slots.** A class is read though its pool stores no count, not even that of an empty
one, and so is a class whose last constant has its second slot behind the declared ones. -/
theorem parse_undeclared :
    (ClassFile.parse (strangeClass uncountedPool).write = .ok (strangeClass uncountedPool) ∧
      uncountedPool.storedSize = 0 ∧ ¬ uncountedPool.IsCounted) ∧
    ClassFile.parse (strangeClass overrunPool).write = .ok (strangeClass overrunPool) ∧
      ¬ overrunPool.IsCounted ∧
      ∃ k d, overrunPool.slots[k]? = some d ∧ d.isWide = true ∧ overrunPool.declared ≤ k + 1 := by
  have huncounted := (strangeClass_isReadable uncountedPool_isReadable).parse_write
  have hoverrun := (strangeClass_isReadable overrunPool_isReadable).parse_write
  exact ⟨⟨huncounted, rfl, by simp [IsCounted, uncountedPool]⟩, hoverrun,
    by simp [IsCounted, overrunPool], 2, _, rfl, rfl, Nat.le_refl _⟩

end Defuse
