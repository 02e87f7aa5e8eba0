import Defuse.Proofs.TextRoundTrip

namespace Defuse.Text

/-!
# The bytes that texts are stored as

Many byte strings are read as some text, but each text is stored as only one of them.

* `HalvesMeet` — units in which each half of a pair stands beside its other half;
* `unitsOf_ofUnits_iff`, `unitsOf_flatMap_ofUnits_iff` — exactly these are the units of a text, or
  of the texts that parts are read as;
* `ModifiedUtf8.SpellsUnit`, `ModifiedUtf8.Spells` — the shortest forms of units, and byte strings
  that consist of them;
* `ModifiedUtf8.spells_iff` — units have one such byte string, the one they are encoded as;
* `ModifiedUtf8.stored_text` — a stored text is read as it was, and the byte strings that are
  stored texts are those made of shortest forms in which the halves of pairs meet.
-/

/-! ### Pairs -/

/-- Every first half of a pair is followed by a second half, and every second half follows a
first one. -/
def HalvesMeet (us : List UInt16) : Prop :=
  ∀ front u back, us = front ++ u :: back →
    (isHighHalf u = true → ∃ v rest, back = v :: rest ∧ isLowHalf v = true) ∧
    (isLowHalf u = true → ∃ rest v, front = rest ++ [v] ∧ isHighHalf v = true)

/-- The first half of a pair is not the second half of one. -/
theorem isLowHalf_of_isHighHalf {u : UInt16} (h : isHighHalf u = true) : isLowHalf u = false := by
  rw [isHighHalf_iff] at h
  rw [Bool.eq_false_iff, Ne, isLowHalf_iff]
  omega

/-- The second half of a pair is not the first half of one. -/
theorem isHighHalf_of_isLowHalf {u : UInt16} (h : isLowHalf u = true) : isHighHalf u = false := by
  rw [isLowHalf_iff] at h
  rw [Bool.eq_false_iff, Ne, isHighHalf_iff]
  omega

namespace HalvesMeet

variable {u v : UInt16} {us : List UInt16}

/-- Without units no half is alone. -/
theorem nil : HalvesMeet [] := by
  intro front u back h
  simp at h

/-- No text starts with a second half. -/
theorem head_not_low (h : HalvesMeet (u :: us)) : isLowHalf u = false := by
  apply Bool.eq_false_iff.mpr
  intro hlow
  obtain ⟨rest, v, hfront, -⟩ := (h [] u us rfl).2 hlow
  simp at hfront

/-- Behind a first half stands a second one. -/
theorem second (h : HalvesMeet (u :: us)) (hu : isHighHalf u = true) :
    ∃ v rest, us = v :: rest ∧ isLowHalf v = true :=
  (h [] u us rfl).1 hu

/-- What stands in front of a unit does not matter, unless it is a first half. -/
theorem behind (front : List UInt16) (h : HalvesMeet (front ++ u :: us))
    (hu : isHighHalf u = false) : HalvesMeet us := by
  intro inner v back hus
  have hsplit := h (front ++ u :: inner) v back (by rw [hus]; simp)
  refine ⟨hsplit.1, ?_⟩
  intro hlow
  obtain ⟨rest, w, hfront, hw⟩ := hsplit.2 hlow
  rcases List.eq_nil_or_concat inner with rfl | ⟨inner, x, rfl⟩
  · -- the unit in front would be the first half
    obtain ⟨-, hsame⟩ := List.append_inj' hfront rfl
    obtain ⟨rfl, -⟩ := List.cons.inj hsame
    rw [hu] at hw
    exact absurd hw Bool.false_ne_true
  · rw [List.concat_eq_append] at hfront ⊢
    rw [← List.cons_append, ← List.append_assoc] at hfront
    obtain ⟨-, hsame⟩ := List.append_inj' hfront rfl
    obtain ⟨rfl, -⟩ := List.cons.inj hsame
    exact ⟨inner, x, rfl, hw⟩

/-- A unit that is no half can be put in front. -/
theorem cons (h : HalvesMeet us) (hhigh : isHighHalf u = false) (hlow : isLowHalf u = false) :
    HalvesMeet (u :: us) := by
  intro front v back hus
  cases front with
  | nil =>
    obtain ⟨rfl, -⟩ := List.cons.inj hus
    simp [hhigh, hlow]
  | cons x front =>
    obtain ⟨rfl, htail⟩ := List.cons.inj hus
    have hsplit := h front v back htail
    refine ⟨hsplit.1, ?_⟩
    intro hv
    obtain ⟨rest, w, rfl, hw⟩ := hsplit.2 hv
    exact ⟨u :: rest, w, rfl, hw⟩

/-- A pair can be put in front. -/
theorem pair (h : HalvesMeet us) (hu : isHighHalf u = true) (hv : isLowHalf v = true) :
    HalvesMeet (u :: v :: us) := by
  intro front w back hus
  -- the unit that is looked at is the first half, the second half, or one of those behind
  match front with
  | [] =>
    obtain ⟨rfl, rfl⟩ := List.cons.inj hus
    simp [isLowHalf_of_isHighHalf hu, hv]
  | [x] =>
    obtain ⟨rfl, htail⟩ := List.cons.inj hus
    obtain ⟨rfl, -⟩ := List.cons.inj htail
    refine ⟨by simp [isHighHalf_of_isLowHalf hv], ?_⟩
    intro _
    exact ⟨[], u, rfl, hu⟩
  | x :: y :: front =>
    obtain ⟨rfl, htail⟩ := List.cons.inj hus
    obtain ⟨rfl, hrest⟩ := List.cons.inj htail
    have hsplit := h front w back hrest
    refine ⟨hsplit.1, ?_⟩
    intro hw
    obtain ⟨rest, z, rfl, hz⟩ := hsplit.2 hw
    exact ⟨u :: v :: rest, z, rfl, hz⟩

end HalvesMeet

/-! ### The units of texts -/

/-- A valid number is that of its character. -/
theorem toNat_ofNat {n : Nat} (h : n.isValidChar) : (Char.ofNat n).toNat = n := by
  rw [Char.ofNat, dif_pos h]
  rfl

/-- A unit that is no half is the number of its character. -/
theorem toNat_ofUnit {u : UInt16} (hhigh : isHighHalf u = false) (hlow : isLowHalf u = false) :
    (ofUnit u).toNat = u.toNat := by
  have hu := u.toNat_lt
  rw [ofUnit, hhigh, hlow]
  apply toNat_ofNat
  rw [Bool.eq_false_iff, Ne, isHighHalf_iff] at hhigh
  rw [Bool.eq_false_iff, Ne, isLowHalf_iff] at hlow
  show u.toNat < 0xD800 ∨ 0xDFFF < u.toNat ∧ u.toNat < 0x110000
  omega

/-- A unit that is no half is the only unit of its character. -/
theorem unitsOfChar_ofUnit {u : UInt16} (hhigh : isHighHalf u = false)
    (hlow : isLowHalf u = false) : unitsOfChar (ofUnit u) = [u] := by
  have hu := u.toNat_lt
  rw [unitsOfChar, toNat_ofUnit hhigh hlow, if_pos (by omega)]
  exact congrArg (· :: []) UInt16.ofNat_toNat

/-- Two halves are the units of the character that they make. -/
theorem unitsOfChar_joinHalves {u v : UInt16} (hu : isHighHalf u = true)
    (hv : isLowHalf v = true) : unitsOfChar (joinHalves u v) = [u, v] := by
  rw [isHighHalf_iff] at hu
  rw [isLowHalf_iff] at hv
  have hchar : (joinHalves u v).toNat =
      0x10000 + (u.toNat - 0xD800) * 0x400 + (v.toNat - 0xDC00) := by
    apply toNat_ofNat
    show _ < 0xD800 ∨ 0xDFFF < _ ∧ _ < 0x110000
    omega
  -- the ten bits of each half are found again in the number of the character
  have hhigh : 0xD800 + ((joinHalves u v).toNat - 0x10000) / 0x400 = u.toNat := by
    rw [hchar]
    omega
  have hlow : 0xDC00 + ((joinHalves u v).toNat - 0x10000) % 0x400 = v.toNat := by
    rw [hchar]
    omega
  rw [unitsOfChar, if_neg (by omega), hhigh, hlow]
  simp

/-- In the units of a text every half meets its partner. -/
theorem halvesMeet_unitsOf (cs : List Char) : HalvesMeet (unitsOf cs) := by
  induction cs with
  | nil => exact .nil
  -- one unit for a character is no half, and two of them are a pair
  | cons c cs ih =>
    have hc := toNat_valid c
    rw [unitsOf_cons, unitsOfChar]
    split
    · next h =>
      have hu : c.toNat.toUInt16.toNat = c.toNat := by simp; omega
      apply HalvesMeet.cons ih
      · rw [Bool.eq_false_iff, Ne, isHighHalf_iff, hu]
        omega
      · rw [Bool.eq_false_iff, Ne, isLowHalf_iff, hu]
        omega
    · next h =>
      apply HalvesMeet.pair ih
      · rw [isHighHalf_iff]
        simp
        omega
      · rw [isLowHalf_iff]
        simp
        omega

/-- Units in which halves meet are those of the text that they are read as. -/
theorem HalvesMeet.unitsOf_ofUnits {us : List UInt16} (h : HalvesMeet us) :
    unitsOf (ofUnits us) = us := by
  -- by induction on the number of units: a character takes one of them or two
  induction hn : us.length using Nat.strongRecOn generalizing us with
  | ind n ih =>
    cases us with
    | nil => rfl
    | cons u us =>
      have hlow := h.head_not_low
      by_cases hhigh : isHighHalf u = true
      · obtain ⟨v, rest, rfl, hv⟩ := h.second hhigh
        have hrest : HalvesMeet rest := h.behind [u] (isHighHalf_of_isLowHalf hv)
        have hlt : rest.length < n := by
          rw [← hn, List.length_cons, List.length_cons]
          omega
        rw [ofUnits_pair rest hhigh hv, unitsOf_cons, unitsOfChar_joinHalves hhigh hv,
          ih rest.length hlt hrest rfl]
        rfl
      · have hnot : isHighHalf u = false := Bool.eq_false_iff.mpr hhigh
        have hrest : HalvesMeet us := h.behind [] hnot
        have hlt : us.length < n := by
          rw [← hn, List.length_cons]
          omega
        rw [ofUnits_cons us hnot, unitsOf_cons, unitsOfChar_ofUnit hnot hlow,
          ih us.length hlt hrest rfl]
        rfl

/-- A text keeps all units exactly if every half meets its partner. -/
theorem unitsOf_ofUnits_iff {us : List UInt16} : unitsOf (ofUnits us) = us ↔ HalvesMeet us := by
  constructor
  · intro h
    rw [← h]
    exact halvesMeet_unitsOf _
  · exact HalvesMeet.unitsOf_ofUnits

/-- A unit is read as a character of one unit, a half without its other half too. -/
theorem length_unitsOfChar_ofUnit (u : UInt16) : (unitsOfChar (ofUnit u)).length = 1 := by
  by_cases hhalf : (isHighHalf u || isLowHalf u) = true
  · rw [ofUnit, if_pos hhalf]
    rfl
  · simp only [Bool.or_eq_true, not_or, Bool.not_eq_true] at hhalf
    rw [unitsOfChar_ofUnit hhalf.1 hhalf.2]
    rfl

/-- Units are read as a text of as many units. -/
theorem length_unitsOf_ofUnits : ∀ us : List UInt16, (unitsOf (ofUnits us)).length = us.length
  | [] => rfl
  | [u] => by
    show (unitsOfChar (ofUnit u) ++ []).length = 1
    rw [List.append_nil, length_unitsOfChar_ofUnit]
  | u :: v :: us => by
    by_cases hpair : (isHighHalf u && isLowHalf v) = true
    · obtain ⟨hu, hv⟩ := Bool.and_eq_true_iff.mp hpair
      rw [ofUnits_pair us hu hv, unitsOf_cons, unitsOfChar_joinHalves hu hv, List.length_append,
        length_unitsOf_ofUnits us, Nat.add_comm]
      rfl
    · have hsingle : ofUnits (u :: v :: us) = ofUnit u :: ofUnits (v :: us) := by
        rw [ofUnits, ofUnitsOnto, if_neg hpair, ofUnitsOnto_eq]
        rfl
      rw [hsingle, unitsOf_cons, List.length_append, length_unitsOfChar_ofUnit,
        length_unitsOf_ofUnits (v :: us), Nat.add_comm]
      rfl

/-- Parts that are read each for itself keep all units if the halves meet in every part. -/
theorem unitsOf_flatMap_ofUnits_iff (uss : List (List UInt16)) :
    unitsOf (uss.flatMap ofUnits) = uss.flatten ↔ ∀ us ∈ uss, HalvesMeet us := by
  induction uss with
  | nil => simp
  | cons us uss ih =>
    rw [List.flatMap_cons, unitsOf_append, List.flatten_cons, List.forall_mem_cons, ← ih,
      ← unitsOf_ofUnits_iff]
    constructor
    · intro h
      exact List.append_inj h (length_unitsOf_ofUnits us)
    · intro h
      rw [h.1, h.2]

namespace ModifiedUtf8

/-! ### Shortest forms -/

/-- The shortest form of a unit.  Units up to U+007F take one byte, apart from the null, which
takes two as those up to U+07FF do; all others take three.  Tails hold six bits each, behind those
of the first byte. -/
inductive SpellsUnit (u : UInt16) : List UInt8 → Prop where
  | one {b : UInt8} (least : 0x01 ≤ b.toNat) (greatest : b.toNat ≤ 0x7F)
      (value : u.toNat = b.toNat) : SpellsUnit u [b]
  | two {b c : UInt8} (range : u.toNat = 0 ∨ 0x80 ≤ u.toNat ∧ u.toNat ≤ 0x7FF)
      (head : 0xC0 ≤ b.toNat) (tail : 0x80 ≤ c.toNat ∧ c.toNat ≤ 0xBF)
      (value : u.toNat = (b.toNat - 0xC0) * 0x40 + (c.toNat - 0x80)) : SpellsUnit u [b, c]
  | three {b c d : UInt8} (range : 0x800 ≤ u.toNat) (head : 0xE0 ≤ b.toNat)
      (tail : 0x80 ≤ c.toNat ∧ c.toNat ≤ 0xBF) (last : 0x80 ≤ d.toNat ∧ d.toNat ≤ 0xBF)
      (value : u.toNat =
        (b.toNat - 0xE0) * 0x1000 + (c.toNat - 0x80) * 0x40 + (d.toNat - 0x80)) :
      SpellsUnit u [b, c, d]

/-- Bytes that consist of the shortest forms of units, one behind the other. -/
inductive Spells : List UInt16 → List UInt8 → Prop where
  | nil : Spells [] []
  | cons {u : UInt16} {us : List UInt16} {front rest : List UInt8} (first : SpellsUnit u front)
      (others : Spells us rest) : Spells (u :: us) (front ++ rest)

/-- A byte is known by its number. -/
theorem toUInt8_eq {n : Nat} {b : UInt8} (h : n = b.toNat) : n.toUInt8 = b := by
  rw [h]
  exact UInt8.ofNat_toNat

/-- A unit is encoded to its shortest form. -/
theorem spellsUnit_encodeUnit (u : UInt16) : SpellsUnit u (encodeUnit u) := by
  have hu := u.toNat_lt
  unfold encodeUnit
  dsimp only
  by_cases hone : u.toNat ≠ 0 ∧ u.toNat < 0x80
  · have hb : u.toNat.toUInt8.toNat = u.toNat := by simp; omega
    rw [if_pos hone]
    apply SpellsUnit.one <;> omega
  · rw [if_neg hone]
    by_cases htwo : u.toNat < 0x800
    · have hb : (0xC0 + u.toNat / 0x40).toUInt8.toNat = 0xC0 + u.toNat / 0x40 := by simp; omega
      have hc : (0x80 + u.toNat % 0x40).toUInt8.toNat = 0x80 + u.toNat % 0x40 := by simp; omega
      rw [if_pos htwo]
      apply SpellsUnit.two <;> omega
    · have hb : (0xE0 + u.toNat / 0x1000).toUInt8.toNat = 0xE0 + u.toNat / 0x1000 := by
        simp
        omega
      have hc : (0x80 + u.toNat / 0x40 % 0x40).toUInt8.toNat = 0x80 + u.toNat / 0x40 % 0x40 := by
        simp
        omega
      have hd : (0x80 + u.toNat % 0x40).toUInt8.toNat = 0x80 + u.toNat % 0x40 := by simp; omega
      rw [if_neg htwo]
      apply SpellsUnit.three <;> omega

/-- The shortest form of a unit is the one it is encoded as. -/
theorem SpellsUnit.eq_encodeUnit {u : UInt16} {bs : List UInt8} (h : SpellsUnit u bs) :
    bs = encodeUnit u := by
  unfold encodeUnit
  dsimp only
  cases h with
  | one least greatest value =>
    rw [if_pos (by omega), toUInt8_eq value]
  | @two b c range head tail value =>
    have hb : 0xC0 + u.toNat / 0x40 = b.toNat := by omega
    have hc : 0x80 + u.toNat % 0x40 = c.toNat := by omega
    rw [if_neg (by omega), if_pos (by omega), toUInt8_eq hb, toUInt8_eq hc]
  | @three b c d range head tail last value =>
    have hb : 0xE0 + u.toNat / 0x1000 = b.toNat := by omega
    have hc : 0x80 + u.toNat / 0x40 % 0x40 = c.toNat := by omega
    have hd : 0x80 + u.toNat % 0x40 = d.toNat := by omega
    rw [if_neg (by omega), if_neg (by omega), toUInt8_eq hb, toUInt8_eq hc, toUInt8_eq hd]

/-- Units have exactly one byte string that consists of their shortest forms. -/
theorem spells_iff {us : List UInt16} {bs : List UInt8} : Spells us bs ↔ bs = encodeUnits us := by
  constructor
  · intro h
    induction h with
    | nil => rfl
    | cons first others ih => rw [encodeUnits_cons, ← first.eq_encodeUnit, ih]
  · rintro rfl
    induction us with
    | nil => exact .nil
    | cons u us ih =>
      rw [encodeUnits_cons]
      exact .cons (spellsUnit_encodeUnit u) ih

/-- **Stored texts.** A stored text is read as it was, in front of any bytes.  Bytes are those that
the text they are read as is stored as, exactly if they consist of shortest forms in which every
half of a pair stands beside its other half. -/
theorem stored_text (s : String) (bs : List UInt8) :
    decode (encode s ++ bs) = s ++ decode bs ∧
      (encode (decode bs) = bs ↔ ∃ us, Spells us bs ∧ HalvesMeet us) := by
  refine ⟨decode_encode_append s bs, ?_⟩
  constructor
  · intro h
    exact ⟨unitsOf (decode bs).toList, spells_iff.mpr h.symm, halvesMeet_unitsOf _⟩
  · rintro ⟨us, hspells, hmeet⟩
    obtain rfl := spells_iff.mp hspells
    have hunits : decodeUnits (encodeUnits us) = us := by
      simpa using decodeUnits_encodeUnits_append us []
    rw [decode, hunits, encode, String.toList_ofList,
      unitsOf_ofUnits_iff.mpr hmeet]

/-- A letter in a form that is too long is stored in one byte. -/
example : encode (decode [0xC1, 0x81]) = [0x41] := by decide

end ModifiedUtf8

end Defuse.Text
