import Defuse.Archive.Inflate

namespace Defuse.Archive

/-!
# What is compressed is had again

The streams that are written hold bytes as they are, in blocks of which all but the last one are
full.

* `deflate_of_le`, `deflate_of_lt` — such a stream is its first block, and a stream of the bytes
  behind it;
* `blocks_storedBlock` — a block that is read adds its bytes to those that are there;
* `inflate_deflate` — the bytes of a stream that is written are read back.
-/

/-! ### Writing -/

/-- What is written already stays in front. -/
theorem storedOnto_eq (acc bs : Bytes) : storedOnto acc bs = acc.reverse ++ deflate bs := by
  -- the blocks in front change from one block to the next, the bytes behind get fewer
  induction hn : bs.length using Nat.strongRecOn generalizing acc bs with
  | ind n ih =>
    rw [deflate, storedOnto.eq_1 acc, storedOnto.eq_1 []]
    by_cases hle : bs.length ≤ storedLimit
    · rw [if_pos hle, if_pos hle, List.reverse_nil, List.nil_append]
    · have hfewer : (bs.drop storedLimit).length < n := by
        rw [List.length_drop, hn]
        simp only [storedLimit] at *
        omega
      rw [if_neg hle, if_neg hle, ih _ hfewer _ _ rfl, ih _ hfewer _ _ rfl]
      simp only [List.reverse_append, List.reverse_reverse, List.append_assoc, List.append_nil]

/-- Few bytes are one block, which is the last one. -/
theorem deflate_of_le {bs : Bytes} (h : bs.length ≤ storedLimit) :
    deflate bs = storedBlock true bs := by
  rw [deflate, storedOnto, if_pos h, List.reverse_nil, List.nil_append]

/-- Many bytes start with a full block, with others to come. -/
theorem deflate_of_lt {bs : Bytes} (h : storedLimit < bs.length) :
    deflate bs = storedBlock false (bs.take storedLimit) ++ deflate (bs.drop storedLimit) := by
  rw [deflate, storedOnto, if_neg (Nat.not_le.mpr h), storedOnto_eq, List.append_nil,
    List.reverse_reverse]

/-! ### Reading -/

/-- A block takes five bytes more than what is in it. -/
theorem length_storedBlock (last : Bool) (bs : Bytes) :
    (storedBlock last bs).length = bs.length + 5 := by
  simp only [storedBlock, List.length_append, List.length_cons, Word.length_bytes]
  omega

/-- The two bytes of a short number. -/
theorem bytes_two (n : Nat) : Word.bytes 2 n = [n.toUInt8, (n / 256).toUInt8] := rfl

/-- The numbers in front of the bytes are read. -/
theorem stored_storedBlock (last : Bool) {bs : Bytes} (h : bs.length ≤ storedLimit)
    (out : Array UInt8) (rest : Bytes) :
    stored out ⟨storedBlock last bs ++ rest, 3⟩ = .ok (out ++ bs, .ofBytes rest) := by
  have hlow (n : Nat) (hn : n ≤ storedLimit) :
      n.toUInt8.toNat + 256 * (n / 256).toUInt8.toNat = n := by
    have hfirst : n.toUInt8.toNat = n % 256 := UInt8.toNat_ofNat'
    have hsecond : (n / 256).toUInt8.toNat = n / 256 % 256 := UInt8.toNat_ofNat'
    simp only [storedLimit] at hn
    omega
  have hlength := hlow bs.length h
  have hother := hlow (storedLimit - bs.length) (Nat.sub_le _ _)
  have hsum : bs.length + (storedLimit - bs.length) = storedLimit := Nat.add_sub_of_le h
  simp only [stored, storedBlock, bytes_two, Bits.align, List.cons_append, List.nil_append,
    List.drop_succ_cons, List.drop_zero, hlength, hother, hsum, List.take_left, List.drop_left,
    ne_eq, not_true_eq_false, if_false, Nat.lt_irrefl, Nat.reduceEqDiff]

/-- A block that holds bytes adds them to those that are there. -/
theorem blocks_storedBlock {bs : Bytes} (h : bs.length ≤ storedLimit) (last : Bool)
    (total fuel : Nat) (out : Array UInt8) (rest : Bytes) :
    blocks total (fuel + 1) out (.ofBytes (storedBlock last bs ++ rest)) =
      if last then .ok (out ++ bs).toList else blocks total fuel (out ++ bs) (.ofBytes rest) := by
  have hmark : (Bits.ofBytes (storedBlock last bs ++ rest)).take 3 =
      some (if last then 1 else 0, ⟨storedBlock last bs ++ rest, 3⟩) := by
    have hbits : Nat.testBit 1 1 = false ∧ Nat.testBit 1 2 = false := by decide
    cases last <;> simp [Bits.take, Bits.read, Bits.ofBytes, storedBlock, hbits]
  have hread := stored_storedBlock last h out rest
  cases last with
  | false => simp [blocks, hmark, block, hread]
  | true => simp [blocks, hmark, block, hread]

/-- A stream adds its bytes to those that are there, and what stands behind it is left out. -/
theorem blocks_deflate (total : Nat) {fuel : Nat} {bs : Bytes} (h : bs.length < fuel)
    (out : Array UInt8) :
    blocks total fuel out (.ofBytes (deflate bs)) = .ok (out.toList ++ bs) := by
  induction fuel generalizing bs out with
  | zero => exact absurd h (Nat.not_lt_zero _)
  | succ fuel ih =>
    -- the bytes are the last block, or there is a full one in front of the others
    by_cases hle : bs.length ≤ storedLimit
    · have hblock := blocks_storedBlock hle true total fuel out []
      rw [List.append_nil] at hblock
      rw [deflate_of_le hle, hblock, if_pos rfl, Array.toList_appendList]
    · have hlt : storedLimit < bs.length := Nat.not_le.mp hle
      have hfront : (bs.take storedLimit).length ≤ storedLimit := List.length_take_le _ _
      have hbehind : (bs.drop storedLimit).length < fuel := by
        rw [List.length_drop]
        simp only [storedLimit] at *
        omega
      rw [deflate_of_lt hlt, blocks_storedBlock hfront, if_neg Bool.false_ne_true, ih hbehind,
        Array.toList_appendList, List.append_assoc, List.take_append_drop]

/-- A stream is longer than what it stands for. -/
theorem length_lt_length_deflate (bs : Bytes) : bs.length < (deflate bs).length := by
  induction hn : bs.length using Nat.strongRecOn generalizing bs with
  | ind n ih =>
    -- either way the header of a block makes the stream longer
    by_cases hle : bs.length ≤ storedLimit
    · rw [deflate_of_le hle, length_storedBlock]
      omega
    · have hlt : storedLimit < bs.length := Nat.not_le.mp hle
      have hbehind := List.length_drop (l := bs) (i := storedLimit)
      have hfront : (bs.take storedLimit).length = storedLimit :=
        List.length_take_of_le (Nat.le_of_lt hlt)
      have hfewer : (bs.drop storedLimit).length < n := by
        simp only [storedLimit] at *
        omega
      have hlater := ih _ hfewer _ rfl
      rw [deflate_of_lt hlt, List.length_append, length_storedBlock]
      omega

/-- **Reading back.** What is compressed is had again. -/
theorem inflate_deflate (bs : Bytes) : inflate (deflate bs) = .ok bs := by
  have hlength := length_lt_length_deflate bs
  have hfuel : bs.length < 8 * (deflate bs).length + 1 := by omega
  exact blocks_deflate _ hfuel #[]

end Defuse.Archive
