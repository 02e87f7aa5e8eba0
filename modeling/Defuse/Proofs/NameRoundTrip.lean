import Defuse.Archive.Zip
import Defuse.Proofs.TextRoundTrip

namespace Defuse

/-!
# Names of entries survive being written

* `Utf8.decodeOnto_char` — the bytes of a character are read as it, whatever follows;
* `Utf8.decode_encode` — the bytes of a text are read as it;
* `CodePage437.decode_encode` — so they are in the other encoding if the text is in ASCII;
* `Archive.textOf_encode` — an entry says which of the two its name is in.
-/

namespace Text

namespace Utf8

/-- What a first byte tells, by its number. -/
theorem head?_ofNat {n : Nat} (h : n < 256) :
    head? (UInt8.ofNat n) =
      if n < 0x80 then some ⟨0, 0x80, 0xBF, n⟩
      else if n < 0xC2 then none
      else if n < 0xE0 then some ⟨1, 0x80, 0xBF, n - 0xC0⟩
      else if n < 0xF0 then
        some ⟨2, UInt8.ofNat (if n = 0xE0 then 0xA0 else 0x80),
          UInt8.ofNat (if n = 0xED then 0x9F else 0xBF), n - 0xE0⟩
      else if n < 0xF5 then
        some ⟨3, UInt8.ofNat (if n = 0xF0 then 0x90 else 0x80),
          UInt8.ofNat (if n = 0xF4 then 0x8F else 0xBF), n - 0xF0⟩
      else none := by
  have hn : (UInt8.ofNat n).toNat = n := UInt8.toNat_ofNat_of_lt h
  simp only [head?, UInt8.lt_iff_toNat_lt, ← UInt8.toNat_inj, hn, apply_ite UInt8.ofNat]
  rfl

/-- A byte that goes on with a character. -/
theorem readTails_ofNat {n least greatest value m : Nat} (hl : least < 256) (hg : greatest < 256)
    (h : least ≤ m ∧ m ≤ greatest) (bs : List UInt8) :
    readTails (n + 1) (UInt8.ofNat least) (UInt8.ofNat greatest) value (UInt8.ofNat m :: bs) =
      readTails n 0x80 0xBF (64 * value + m % 64) bs := by
  have hm : (UInt8.ofNat m).toNat = m := UInt8.toNat_ofNat_of_lt (Nat.lt_of_le_of_lt h.2 hg)
  have hl : (UInt8.ofNat least).toNat = least := UInt8.toNat_ofNat_of_lt hl
  have hg : (UInt8.ofNat greatest).toNat = greatest := UInt8.toNat_ofNat_of_lt hg
  rw [readTails, if_pos, hm]
  rwa [UInt8.le_iff_toNat_le, UInt8.le_iff_toNat_le, hm, hl, hg]

/-- A first byte with those that go on. -/
theorem decodeOnto_cons {b : UInt8} {h : Head} (hb : head? b = some h) {bs rest : List UInt8}
    {c : Char} (hread : readTails h.tails h.least h.greatest h.value bs = (some c, rest))
    (acc : List Char) : decodeOnto acc (b :: bs) = decodeOnto (c :: acc) rest := by
  rw [decodeOnto.eq_def]
  simp only [hb, hread, Option.getD_some]

/-- The bytes of a character are read as it, whatever follows. -/
theorem decodeOnto_char (c : Char) (acc : List Char) (bs : List UInt8) :
    decodeOnto acc (String.utf8EncodeChar c ++ bs) = decodeOnto (c :: acc) bs := by
  have hc := toNat_valid c
  have hchar : Char.ofNat c.toNat = c := Char.ofNat_toNat c
  generalize hv : c.toNat = v at hc hchar
  have hvalue : c.val.toNat = v := hv
  -- one case for each number of bytes
  by_cases hone : v ≤ 127
  · have hhead : head? (UInt8.ofNat v) = some ⟨0, 0x80, 0xBF, v⟩ := by
      rw [head?_ofNat (by omega), if_pos (by omega)]
    simp only [String.utf8EncodeChar, hvalue, if_pos hone, List.singleton_append]
    refine decodeOnto_cons hhead ?_ acc
    rw [readTails, hchar]
  by_cases htwo : v ≤ 2047
  · have hhead : head? (UInt8.ofNat (v / 64 % 32 + 192)) = some ⟨1, 0x80, 0xBF, v / 64⟩ := by
      rw [head?_ofNat (by omega), if_neg (by omega), if_neg (by omega), if_pos (by omega)]
      have hrest : v / 64 % 32 + 192 - 0xC0 = v / 64 := by omega
      rw [hrest]
    simp only [String.utf8EncodeChar, hvalue, if_neg hone, if_pos htwo, List.cons_append,
      List.nil_append]
    refine decodeOnto_cons hhead ?_ acc
    have hjoin : 64 * (v / 64) + (v % 64 + 128) % 64 = v := by omega
    show readTails (0 + 1) (UInt8.ofNat 0x80) (UInt8.ofNat 0xBF) _ _ = _
    rw [readTails_ofNat (by omega) (by omega) (by omega), hjoin, readTails, hchar]
  by_cases hthree : v ≤ 65535
  · have hhead : head? (UInt8.ofNat (v / 4096 % 16 + 224)) =
        some ⟨2, UInt8.ofNat (if v / 4096 % 16 + 224 = 0xE0 then 0xA0 else 0x80),
          UInt8.ofNat (if v / 4096 % 16 + 224 = 0xED then 0x9F else 0xBF), v / 4096⟩ := by
      rw [head?_ofNat (by omega), if_neg (by omega), if_neg (by omega), if_neg (by omega),
        if_pos (by omega)]
      have hrest : v / 4096 % 16 + 224 - 0xE0 = v / 4096 := by omega
      rw [hrest]
    simp only [String.utf8EncodeChar, hvalue, if_neg hone, if_neg htwo, if_pos hthree,
      List.cons_append, List.nil_append]
    refine decodeOnto_cons hhead ?_ acc
    have hjoin : 64 * (64 * (v / 4096) + (v / 64 % 64 + 128) % 64) + (v % 64 + 128) % 64 = v := by
      omega
    -- a text that is too long, and a half of a pair, have another second byte
    show readTails (1 + 1) _ _ _ _ = _
    rw [readTails_ofNat (by split <;> omega) (by split <;> omega)
      (by constructor <;> split <;> omega)]
    show readTails (0 + 1) (UInt8.ofNat 0x80) (UInt8.ofNat 0xBF) _ _ = _
    rw [readTails_ofNat (by omega) (by omega) (by omega), hjoin, readTails, hchar]
  · have hhead : head? (UInt8.ofNat (v / 262144 % 8 + 240)) =
        some ⟨3, UInt8.ofNat (if v / 262144 % 8 + 240 = 0xF0 then 0x90 else 0x80),
          UInt8.ofNat (if v / 262144 % 8 + 240 = 0xF4 then 0x8F else 0xBF), v / 262144⟩ := by
      rw [head?_ofNat (by omega), if_neg (by omega), if_neg (by omega), if_neg (by omega),
        if_neg (by omega), if_pos (by omega)]
      have hrest : v / 262144 % 8 + 240 - 0xF0 = v / 262144 := by omega
      rw [hrest]
    simp only [String.utf8EncodeChar, hvalue, if_neg hone, if_neg htwo, if_neg hthree,
      List.cons_append, List.nil_append]
    refine decodeOnto_cons hhead ?_ acc
    have hjoin : 64 * (64 * (64 * (v / 262144) + (v / 4096 % 64 + 128) % 64) +
        (v / 64 % 64 + 128) % 64) + (v % 64 + 128) % 64 = v := by omega
    show readTails (2 + 1) _ _ _ _ = _
    rw [readTails_ofNat (by split <;> omega) (by split <;> omega)
      (by constructor <;> split <;> omega)]
    show readTails (1 + 1) (UInt8.ofNat 0x80) (UInt8.ofNat 0xBF) _ _ = _
    rw [readTails_ofNat (by omega) (by omega) (by omega)]
    show readTails (0 + 1) (UInt8.ofNat 0x80) (UInt8.ofNat 0xBF) _ _ = _
    rw [readTails_ofNat (by omega) (by omega) (by omega), hjoin, readTails, hchar]

/-- Characters are decoded one after the other, onto those that are decoded so far. -/
theorem decodeOnto_flatMap (cs acc : List Char) :
    decodeOnto acc (cs.flatMap String.utf8EncodeChar) = acc.reverse ++ cs := by
  induction cs generalizing acc with
  | nil => simp [decodeOnto]
  | cons c cs ih => rw [List.flatMap_cons, decodeOnto_char, ih, List.reverse_cons,
      List.append_assoc, List.singleton_append]

/-- The bytes of a text are read as it. -/
@[simp] theorem decode_encode (s : String) : decode (encode s) = s := by
  rw [decode, encode, decodeOnto_flatMap, List.reverse_nil, List.nil_append, String.ofList_toList]

end Utf8

namespace CodePage437

/-- The bytes of an ASCII text are read as it. -/
theorem decode_encode {s : String} (h : ∀ c ∈ s.toList, c.toNat < 128) :
    decode (Utf8.encode s) = s := by
  have hbytes : (Utf8.encode s).map ofByte = s.toList := by
    rw [Utf8.encode]
    generalize s.toList = cs at h
    induction cs with
    | nil => rfl
    | cons c cs ih =>
      have hc : c.val.toNat < 128 := h c List.mem_cons_self
      have hbyte : (UInt8.ofNat c.val.toNat).toNat = c.val.toNat :=
        UInt8.toNat_ofNat_of_lt (Nat.lt_trans hc (by decide))
      have hlow : UInt8.ofNat c.val.toNat < 0x80 := by rwa [UInt8.lt_iff_toNat_lt, hbyte]
      have hone : String.utf8EncodeChar c = [UInt8.ofNat c.val.toNat] :=
        if_pos (Nat.le_of_lt_succ hc)
      have hothers := ih fun other hother => h other (List.mem_cons_of_mem _ hother)
      rw [List.flatMap_cons, hone, List.map_append, hothers, List.map_singleton, ofByte,
        if_pos hlow, hbyte]
      exact congrArg (· :: cs) (Char.ofNat_toNat c)
  rw [decode, hbytes, String.ofList_toList]

end CodePage437

end Text

/-- An entry says which of the two encodings its name is in. -/
theorem Archive.textOf_encode (e : Archive.Entry) :
    Archive.Zip.textOf e.flags (Text.Utf8.encode e.name) = e.name := by
  by_cases hascii : (e.name.toList.all fun c => c.toNat < 128) = true
  · have hflags : e.flags = 0 := if_pos hascii
    have hall : ∀ c ∈ e.name.toList, c.toNat < 128 := by
      intro c hc
      exact of_decide_eq_true (List.all_eq_true.mp hascii c hc)
    rw [Zip.textOf, hflags, Nat.zero_testBit, if_neg Bool.false_ne_true,
      Text.CodePage437.decode_encode hall]
  · have hflags : e.flags = 2 ^ Zip.utf8Flag := if_neg hascii
    rw [Zip.textOf, hflags, Nat.testBit_two_pow_self, if_pos rfl, Text.Utf8.decode_encode]

end Defuse
