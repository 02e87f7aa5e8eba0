import Defuse.Text.ModifiedUtf8

namespace Defuse.Text

/-!
# Texts survive being stored

* `ofUnits_unitsOf_append` — the units of a text are read as this text, whatever follows;
* `ModifiedUtf8.decodeUnits_encodeUnits_append` — the same for units and their bytes;
* `ModifiedUtf8.decode_encode_append` — together: the stored bytes of a text are read as it;
* `ModifiedUtf8.length_le_encode` — a text is stored in no fewer bytes than it has characters.
-/

/-! ### Units -/

/-- The first half of a pair is in the range of first halves. -/
theorem isHighHalf_iff {u : UInt16} :
    isHighHalf u = true ↔ 0xD800 ≤ u.toNat ∧ u.toNat < 0xDC00 := by
  simp [isHighHalf, UInt16.le_iff_toNat_le, UInt16.lt_iff_toNat_lt]

/-- The second half of a pair is in the range of second halves. -/
theorem isLowHalf_iff {u : UInt16} :
    isLowHalf u = true ↔ 0xDC00 ≤ u.toNat ∧ u.toNat < 0xE000 := by
  simp [isLowHalf, UInt16.le_iff_toNat_le, UInt16.lt_iff_toNat_lt]

/-- A character is no half of a pair. -/
theorem toNat_valid (c : Char) :
    c.toNat < 0xD800 ∨ 0xE000 ≤ c.toNat ∧ c.toNat < 0x110000 := by
  have := c.valid
  simp only [UInt32.isValidChar, Nat.isValidChar] at this
  show c.val.toNat < _ ∨ _ ≤ c.val.toNat ∧ c.val.toNat < _
  omega

/-- A character is put together again from its units, whatever follows. -/
theorem ofUnits_unitsOfChar_append (c : Char) (us : List UInt16) :
    ofUnits (unitsOfChar c ++ us) = c :: ofUnits us := by
  have hc := toNat_valid c
  by_cases h : c.toNat < 0x10000
  · -- a character of one unit
    have hu : c.toNat.toUInt16.toNat = c.toNat := by simp; omega
    have high : isHighHalf c.toNat.toUInt16 = false := by
      rw [Bool.eq_false_iff, Ne, isHighHalf_iff, hu]
      omega
    have low : isLowHalf c.toNat.toUInt16 = false := by
      rw [Bool.eq_false_iff, Ne, isLowHalf_iff, hu]
      omega
    rw [unitsOfChar, if_pos h, List.singleton_append, ofUnits_cons us high, ofUnit, high, low, hu]
    simp
  · -- a character of two halves
    -- the two halves carry ten bits each
    have hhigh : (0xD800 + (c.toNat - 0x10000) / 0x400).toUInt16.toNat
        = 0xD800 + (c.toNat - 0x10000) / 0x400 := by simp; omega
    have hlow : (0xDC00 + (c.toNat - 0x10000) % 0x400).toUInt16.toNat
        = 0xDC00 + (c.toNat - 0x10000) % 0x400 := by simp; omega
    rw [unitsOfChar, if_neg h, List.cons_append, List.singleton_append,
      ofUnits_pair us (isHighHalf_iff.mpr (by omega)) (isLowHalf_iff.mpr (by omega)), joinHalves,
      hhigh, hlow]
    have hjoin : 0x10000 + (0xD800 + (c.toNat - 0x10000) / 0x400 - 0xD800) * 0x400
        + (0xDC00 + (c.toNat - 0x10000) % 0x400 - 0xDC00) = c.toNat := by omega
    rw [hjoin, Char.ofNat_toNat]

/-- The units of a text are read as this text. -/
theorem ofUnits_unitsOf_append (cs : List Char) (us : List UInt16) :
    ofUnits (unitsOf cs ++ us) = cs ++ ofUnits us := by
  induction cs with
  | nil => rfl
  | cons c cs ih => rw [unitsOf_cons, List.append_assoc, ofUnits_unitsOfChar_append, ih]; rfl

/-- A text is put together again from its units. -/
theorem ofUnits_unitsOf (cs : List Char) : ofUnits (unitsOf cs) = cs := by
  simpa using ofUnits_unitsOf_append cs []

namespace ModifiedUtf8

/-! ### Bytes -/

/-- What is read goes on top of what was read before. -/
theorem decodeUnitsOnto_append (acc base : List UInt16) (bs : List UInt8) :
    decodeUnitsOnto (acc ++ base) bs = base.reverse ++ decodeUnitsOnto acc bs := by
  induction acc, bs using decodeUnitsOnto.induct with
  -- one case for each number of bytes that a unit is read from, and one for each way that a byte is
  -- malformed
  | case1 acc => simp [decodeUnitsOnto]
  | case2 acc b bs hb ih =>
    rw [decodeUnitsOnto.eq_def, decodeUnitsOnto.eq_def acc]
    simp only [hb, ↓reduceIte]
    exact ih
  | case3 acc b hb =>
    rw [decodeUnitsOnto.eq_def, decodeUnitsOnto.eq_def acc]
    simp [hb]
  | case4 acc b hb c cs htwo ih =>
    rw [decodeUnitsOnto.eq_def, decodeUnitsOnto.eq_def acc]
    simp only [hb, htwo, ↓reduceIte]
    exact ih
  | case5 acc b hb c htwo ih =>
    rw [decodeUnitsOnto.eq_def, decodeUnitsOnto.eq_def acc]
    simp only [hb, htwo, ↓reduceIte, Bool.false_eq_true]
    exact ih
  | case6 acc b hb c htwo d ds hthree ih =>
    rw [decodeUnitsOnto.eq_def, decodeUnitsOnto.eq_def acc]
    simp only [hb, htwo, hthree, ↓reduceIte, Bool.false_eq_true]
    exact ih
  | case7 acc b hb c htwo d ds hthree ih =>
    rw [decodeUnitsOnto.eq_def, decodeUnitsOnto.eq_def acc]
    simp only [hb, htwo, hthree, ↓reduceIte, Bool.false_eq_true]
    exact ih

/-- What is read already stays in front. -/
theorem decodeUnitsOnto_eq (acc : List UInt16) (bs : List UInt8) :
    decodeUnitsOnto acc bs = acc.reverse ++ decodeUnits bs := by
  simpa [decodeUnits] using decodeUnitsOnto_append [] acc bs

/-- A byte below 128 is a unit. -/
theorem decodeUnits_one {b : UInt8} (bs : List UInt8) (hb : b < 0x80) :
    decodeUnits (b :: bs) = b.toUInt16 :: decodeUnits bs := by
  rw [decodeUnits, decodeUnitsOnto.eq_def]
  simp only [hb, ↓reduceIte, decodeUnitsOnto_eq [_]]
  rfl

/-- Two bytes of the right kinds are a unit. -/
theorem decodeUnits_two {b c : UInt8} (bs : List UInt8) (hb : isHeadOfTwo b = true)
    (hc : isTail c = true) :
    decodeUnits (b :: c :: bs) = unitOfTwo b c :: decodeUnits bs := by
  have : ¬ b < 0x80 := by
    simp [isHeadOfTwo, UInt8.le_iff_toNat_le, UInt8.lt_iff_toNat_lt] at hb ⊢
    omega
  rw [decodeUnits, decodeUnitsOnto.eq_def]
  simp only [this, hb, hc, Bool.and_self, ↓reduceIte, decodeUnitsOnto_eq [_]]
  rfl

/-- Three bytes of the right kinds are a unit. -/
theorem decodeUnits_three {b c d : UInt8} (bs : List UInt8) (hb : isHeadOfThree b = true)
    (hc : isTail c = true) (hd : isTail d = true) :
    decodeUnits (b :: c :: d :: bs) = unitOfThree b c d :: decodeUnits bs := by
  have hlow : ¬ b < 0x80 := by
    simp [isHeadOfThree, UInt8.le_iff_toNat_le, UInt8.lt_iff_toNat_lt] at hb ⊢
    omega
  have htwo : isHeadOfTwo b = false := by
    simp [isHeadOfThree, isHeadOfTwo, UInt8.le_iff_toNat_le, UInt8.lt_iff_toNat_lt] at hb ⊢
    omega
  rw [decodeUnits, decodeUnitsOnto.eq_def]
  simp only [hlow, htwo, hb, hc, hd, Bool.and_self, Bool.false_and, ↓reduceIte,
    Bool.false_eq_true, decodeUnitsOnto_eq [_]]
  rfl

/-- A unit is read back from its bytes, whatever follows. -/
theorem decodeUnits_encodeUnit_append (u : UInt16) (bs : List UInt8) :
    decodeUnits (encodeUnit u ++ bs) = u :: decodeUnits bs := by
  have hu := u.toNat_lt
  unfold encodeUnit
  dsimp only
  -- units take one byte, two or three; the null unit is not among those of one byte
  by_cases hone : u.toNat ≠ 0 ∧ u.toNat < 0x80
  · rw [if_pos hone, List.singleton_append, decodeUnits_one]
    · congr 1
      apply UInt16.toNat.inj
      simp
      omega
    · simp [UInt8.lt_iff_toNat_lt]
      omega
  · rw [if_neg hone]
    by_cases htwo : u.toNat < 0x800
    · rw [if_pos htwo, List.cons_append, List.singleton_append, decodeUnits_two]
      · congr 1
        apply UInt16.toNat.inj
        simp [unitOfTwo]
        omega
      · simp [isHeadOfTwo, UInt8.le_iff_toNat_le, UInt8.lt_iff_toNat_lt]
        omega
      · simp [isTail, UInt8.le_iff_toNat_le, UInt8.lt_iff_toNat_lt]
        omega
    · rw [if_neg htwo, List.cons_append, List.cons_append, List.singleton_append,
        decodeUnits_three]
      · congr 1
        apply UInt16.toNat.inj
        simp [unitOfThree]
        omega
      · simp [isHeadOfThree, UInt8.le_iff_toNat_le, UInt8.lt_iff_toNat_lt]
        omega
      · simp [isTail, UInt8.le_iff_toNat_le, UInt8.lt_iff_toNat_lt]
        omega
      · simp [isTail, UInt8.le_iff_toNat_le, UInt8.lt_iff_toNat_lt]
        omega

/-- The bytes of a list of units are read as these units. -/
theorem decodeUnits_encodeUnits_append (us : List UInt16) (bs : List UInt8) :
    decodeUnits (encodeUnits us ++ bs) = us ++ decodeUnits bs := by
  induction us with
  | nil => rfl
  | cons u us ih =>
    rw [encodeUnits_cons, List.append_assoc, decodeUnits_encodeUnit_append, ih]
    rfl

/-- Different units have different bytes. -/
theorem encodeUnits_inj {us vs : List UInt16} : encodeUnits us = encodeUnits vs ↔ us = vs := by
  constructor
  · intro h
    have hread := decodeUnits_encodeUnits_append us []
    rw [h, decodeUnits_encodeUnits_append] at hread
    simpa using hread.symm
  · intro h
    rw [h]

/-- The stored bytes of a text are read as this text, whatever follows. -/
theorem decode_encode_append (s : String) (bs : List UInt8) :
    decode (encode s ++ bs) = s ++ decode bs := by
  rw [decode, encode, decodeUnits_encodeUnits_append, ofUnits_unitsOf_append, String.ofList_append,
    String.ofList_toList]
  rfl

/-- A text is read back from its bytes. -/
theorem decode_encode (s : String) : decode (encode s) = s := by
  simpa [decode] using decode_encode_append s []

/-! ### Lengths -/

/-- What is made of parts, none of them empty, has no fewer items than there are parts. -/
theorem length_le_of_ne_nil {α β : Type} {f : α → List β} (hf : ∀ a, f a ≠ []) (as : List α) :
    as.length ≤ (as.flatMap f).length := by
  induction as with
  | nil => exact Nat.le_refl 0
  | cons a as ih =>
    have hpos : 0 < (f a).length := List.length_pos_iff.mpr (hf a)
    rw [List.flatMap_cons, List.length_append, List.length_cons]
    omega

/-- A unit takes a byte at least. -/
theorem encodeUnit_ne_nil (u : UInt16) : encodeUnit u ≠ [] := by
  simp only [encodeUnit]
  split
  · simp
  · split <;> simp

/-- A text takes at least one byte for each character. -/
theorem length_le_encode (s : String) : s.length ≤ (encode s).length := by
  have hunits (c : Char) : unitsOfChar c ≠ [] := by
    unfold unitsOfChar
    split <;> simp
  calc s.length = s.toList.length := String.length_toList.symm
    _ ≤ (unitsOf s.toList).length := length_le_of_ne_nil hunits _
    _ ≤ (encode s).length := length_le_of_ne_nil encodeUnit_ne_nil _

end ModifiedUtf8

end Defuse.Text
