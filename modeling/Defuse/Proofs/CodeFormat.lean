import Defuse.Code.Instruction
import Defuse.Proofs.Reading

namespace Defuse

/-!
# The format of code arrays

* `Instruction.decode_encode` — an instruction is read off the front of its encoding;
* `Instruction.decodeAll_encodeAll` — a list of instructions is read off its encoding;
* `Instruction.Unreadable`, `Instruction.decodeOnto_cases` — what is refused, and where;
* `Instruction.codec` — exactly the encodings are read, and refused bytes as far as they go.
-/

namespace Instruction

/-- Every instruction takes a byte at least. -/
theorem size_pos (i : Instruction) : 0 < i.size := by
  cases i <;> simp [size]

/-- An instruction is read off the front of its encoding. -/
theorem decode_encode (i : Instruction) (rest : Bytes) :
    decode (i.encode ++ rest) = some (i, rest) := by
  cases i
  -- a word of two bytes is put together again; all other operands take one byte
  case sipush value =>
    show some (sipush (Bytes.word16 _ _).toInt16, rest) = _
    rw [Bytes.halves16.join_halves]
    rfl
  case ldcW index =>
    show some (ldcW (Bytes.word16 _ _), rest) = _
    rw [Bytes.halves16.join_halves]
  case ldc2W index =>
    show some (ldc2W (Bytes.word16 _ _), rest) = _
    rw [Bytes.halves16.join_halves]
  case invokespecial index =>
    show some (invokespecial (Bytes.word16 _ _), rest) = _
    rw [Bytes.halves16.join_halves]
  case new index =>
    show some (new (Bytes.word16 _ _), rest) = _
    rw [Bytes.halves16.join_halves]
  all_goals rfl

/-- With a byte of fuel for each byte of the encoding, all instructions are read. -/
theorem decodeOnto_encodeAll (is acc : List Instruction) (position fuel : Nat)
    (hfuel : (encodeAll is).length ≤ fuel) :
    decodeOnto fuel acc position (encodeAll is) = .ok (acc.reverse ++ is) := by
  induction is generalizing acc position fuel with
  | nil =>
    rw [encodeAll_nil, List.append_nil]
    cases fuel <;> rfl
  | cons i is ih =>
    have hpos := i.size_pos
    rw [encodeAll_cons, List.length_append, length_encode] at hfuel
    -- an instruction takes a byte at least, so there is fuel to read it
    obtain ⟨fuel, rfl⟩ : ∃ n, fuel = n + 1 := Nat.exists_eq_add_one.mpr (by omega)
    obtain ⟨b, bs, hbytes⟩ : ∃ b bs, i.encode ++ encodeAll is = b :: bs := by
      apply List.exists_cons_of_length_pos
      rw [List.length_append, length_encode]
      omega
    have hdecode := decode_encode i (encodeAll is)
    rw [encodeAll_cons, hbytes, decodeOnto, ← hbytes, hdecode]
    show decodeOnto fuel (i :: acc) (position + i.size) (encodeAll is) = _
    rw [ih (i :: acc) (position + i.size) fuel (by omega)]
    simp

/-- A list of instructions is read off its encoding. -/
theorem decodeAll_encodeAll (is : List Instruction) : decodeAll (encodeAll is) = .ok is :=
  decodeOnto_encodeAll is [] 0 _ (Nat.le_refl _)

/-! ### What is refused -/

/-- An instruction is read off the front of exactly its encoding. -/
theorem decode_eq_some {bs rest : Bytes} {i : Instruction} :
    decode bs = some (i, rest) ↔ bs = i.encode ++ rest := by
  constructor
  · intro h
    unfold decode at h
    -- an operand of two bytes is a word, which is taken apart into the same bytes
    split at h <;> cases h <;>
      simp only [encode, Bytes.ofWord16_word16, UInt8.toUInt8_toInt8, UInt16.toUInt16_toInt16,
        List.cons_append, List.nil_append]
  · rintro rfl
    exact decode_encode i rest

/-- Where the bytes of an instruction with this opcode are all there, one is read. -/
theorem exists_decode {i : Instruction} {opcode : UInt8} {rest : Bytes}
    (hopcode : i.encode.head? = some opcode) (hlong : i.size ≤ (opcode :: rest).length) :
    ∃ j left, decode (opcode :: rest) = some (j, left) := by
  rw [List.length_cons] at hlong
  cases i <;> cases hopcode
  case bipush | ldc =>
    obtain ⟨b, rest, rfl⟩ := List.exists_cons_of_length_pos (Nat.le_of_succ_le_succ hlong)
    exact ⟨_, _, rfl⟩
  case sipush | ldcW | ldc2W | invokespecial | new =>
    have htwo : 2 ≤ rest.length := Nat.le_of_succ_le_succ hlong
    obtain ⟨b, rest, rfl⟩ := List.exists_cons_of_length_pos (Nat.lt_of_succ_lt htwo)
    obtain ⟨c, rest, rfl⟩ := List.exists_cons_of_length_pos (Nat.le_of_succ_le_succ htwo)
    exact ⟨_, _, rfl⟩
  all_goals exact ⟨_, _, rfl⟩

/-- Bytes that start with no instruction: the first one is no opcode, or it is one whose operand is
cut short. -/
inductive Unreadable : Bytes → Prop where
  | unknown {opcode : UInt8} {rest : Bytes} (h : ∀ i : Instruction, i.encode.head? ≠ some opcode) :
      Unreadable (opcode :: rest)
  | short {i : Instruction} {opcode : UInt8} {rest : Bytes} (h : i.encode.head? = some opcode)
      (hshort : ∀ j : Instruction, j.encode.head? = some opcode → rest.length + 1 < j.size) :
      Unreadable (opcode :: rest)

/-- Where no instruction stands, none is decoded. -/
theorem Unreadable.decode {bs : Bytes} (h : Unreadable bs) : decode bs = none := by
  cases hdecode : Instruction.decode bs with
  | none => rfl
  | some p =>
    obtain ⟨i, left⟩ := p
    have hbytes := decode_eq_some.mp hdecode
    have hhead : i.encode.head? = bs.head? := by
      rw [hbytes]
      cases i <;> rfl
    have hlength : i.size ≤ bs.length := by
      rw [hbytes, List.length_append, length_encode]
      exact Nat.le_add_right _ _
    cases h with
    | unknown h => exact absurd hhead (h i)
    | short _ hshort => exact absurd hlength (Nat.not_le.mpr (hshort i hhead))

/-- Where none is decoded, the first byte is unknown or too few bytes follow it. -/
theorem unreadable_of_decode {opcode : UInt8} {rest : Bytes} (h : decode (opcode :: rest) = none) :
    Unreadable (opcode :: rest) := by
  by_cases hknown : ∃ i : Instruction, i.encode.head? = some opcode
  · obtain ⟨i, hi⟩ := hknown
    refine .short hi fun j hj => Nat.not_le.mp fun hlong => ?_
    obtain ⟨k, left, hread⟩ := exists_decode hj hlong
    rw [h] at hread
    cases hread
  · exact .unknown fun i hi => hknown ⟨i, hi⟩

/-- Behind all instructions that can be read there is nothing, or the one that is refused. -/
theorem decodeOnto_cases (fuel : Nat) (acc : List Instruction) (position : Nat) (bs : Bytes)
    (hfuel : bs.length ≤ fuel) : ∃ is rest, bs = encodeAll is ++ rest ∧
      (rest = [] ∧ decodeOnto fuel acc position bs = .ok (acc.reverse ++ is) ∨
        Unreadable rest ∧
          decodeOnto fuel acc position bs = .error (position + (is.map size).sum)) := by
  induction fuel generalizing acc position bs with
  | zero =>
    obtain rfl := List.eq_nil_of_length_eq_zero (Nat.le_zero.mp hfuel)
    exact ⟨[], [], rfl, .inl ⟨rfl, by simp [decodeOnto]⟩⟩
  | succ fuel ih =>
    cases bs with
    | nil => exact ⟨[], [], rfl, .inl ⟨rfl, by simp [decodeOnto]⟩⟩
    | cons opcode operand =>
      rw [decodeOnto]
      cases hdecode : decode (opcode :: operand) with
      | none => exact ⟨[], _, rfl, .inr ⟨unreadable_of_decode hdecode, rfl⟩⟩
      | some p =>
        obtain ⟨i, left⟩ := p
        have hbytes := decode_eq_some.mp hdecode
        -- an instruction takes a byte at least, so there is fuel for what is left
        have hpos := i.size_pos
        have hleft : left.length ≤ fuel := by
          have hlength := congrArg List.length hbytes
          rw [List.length_append, length_encode] at hlength
          omega
        obtain ⟨is, rest, rfl, hrun⟩ := ih (i :: acc) (position + i.size) left hleft
        refine ⟨i :: is, rest, ?_, ?_⟩
        · rw [hbytes, encodeAll_cons, List.append_assoc]
        · rw [List.reverse_cons, List.append_assoc, Nat.add_assoc] at hrun
          exact hrun

/-- A list of instructions takes the bytes of all of them together. -/
theorem length_encodeAll (is : List Instruction) : (encodeAll is).length = (is.map size).sum := by
  induction is with
  | nil => rfl
  | cons i is ih => simp [ih]

/-- Whatever instructions stand in front are among those that are read. -/
theorem prefix_of_unreadable {is js : List Instruction} {rest more : Bytes} (h : Unreadable rest)
    (hbytes : encodeAll is ++ rest = encodeAll js ++ more) : js <+: is := by
  induction js generalizing is with
  | nil => exact List.nil_prefix
  | cons j js ih =>
    rw [encodeAll_cons, List.append_assoc] at hbytes
    have hread := decode_eq_some.mpr hbytes
    cases is with
    | nil =>
      rw [encodeAll_nil, List.nil_append, h.decode] at hread
      cases hread
    | cons i is =>
      -- both start with an instruction, and only one is read off the same bytes
      rw [encodeAll_cons, List.append_assoc, decode_encode] at hread
      obtain ⟨rfl, hrest⟩ : i = j ∧ encodeAll is ++ rest = encodeAll js ++ more := by
        simpa using hread
      exact List.cons_prefix_cons.mpr ⟨rfl, ih hrest⟩

/-- **The codec of instructions.** A list of instructions is read off its encoding, which has as
many bytes as the instructions together; and what is read off a byte string has this byte string as
its encoding.  One that is refused is refused at a position up to which it can be read, which is the
number of bytes of the instructions up to there, and where a byte is no opcode or an operand is cut
short.  Whatever can be read in front is a part of these instructions, so none of it is longer. -/
theorem codec (bs : Bytes) :
    (∀ is, decodeAll (encodeAll is) = .ok is ∧ (encodeAll is).length = (is.map size).sum) ∧
    (∀ is, decodeAll bs = .ok is → encodeAll is = bs) ∧
    ∀ n, decodeAll bs = .error n → ∃ is, decodeAll (bs.take n) = .ok is ∧
      n = (is.map size).sum ∧ Unreadable (bs.drop n) ∧
      ∀ front js, front <+: bs → decodeAll front = .ok js → js <+: is ∧ front.length ≤ n := by
  -- what is decoded is put together again from the same bytes
  have hsound : ∀ bs is, decodeAll bs = .ok is → encodeAll is = bs := by
    intro bs is h
    obtain ⟨js, rest, hbytes, ⟨rfl, hrun⟩ | ⟨-, hrun⟩⟩ :=
      decodeOnto_cases bs.length [] 0 bs (Nat.le_refl _)
    · cases hrun.symm.trans h
      rw [hbytes, List.append_nil]
      rfl
    · cases hrun.symm.trans h
  refine ⟨fun is => ⟨decodeAll_encodeAll is, length_encodeAll is⟩, hsound bs, ?_⟩
  intro n h
  -- the decoder stops at the end of the bytes, or where no instruction stands
  obtain ⟨is, rest, hbytes, ⟨-, hrun⟩ | ⟨hunreadable, hrun⟩⟩ :=
    decodeOnto_cases bs.length [] 0 bs (Nat.le_refl _)
  · cases hrun.symm.trans h
  · have hn : n = (encodeAll is).length := by
      cases hrun.symm.trans h
      rw [length_encodeAll, Nat.zero_add]
    refine ⟨is, ?_, hn.trans (length_encodeAll is), ?_, ?_⟩
    · rw [hn, hbytes, List.take_left]
      exact decodeAll_encodeAll is
    · rwa [hn, hbytes, List.drop_left]
    -- a longer decodable front would have an instruction where none stands
    · rintro front js ⟨more, rfl⟩ hfront
      obtain rfl := hsound front js hfront
      obtain ⟨left, rfl⟩ := prefix_of_unreadable hunreadable hbytes.symm
      refine ⟨List.prefix_append js left, ?_⟩
      rw [hn, length_encodeAll, length_encodeAll, List.map_append, List.sum_append]
      exact Nat.le_add_right _ _

/-- `dup` and an operand of two bytes, and the same bytes without the last one. -/
theorem codec_cutShort :
    decodeAll [0x59, 0x11, 0xFF, 0xFE] = .ok [.dup, .sipush (-2)] ∧
    encodeAll [.dup, .sipush (-2)] = [0x59, 0x11, 0xFF, 0xFE] ∧
    decodeAll [0x59, 0x11, 0xFF] = .error 1 ∧
    ∃ is, decodeAll [0x59] = .ok is ∧ 1 = (is.map size).sum ∧ Unreadable [0x11, 0xFF] ∧
      ∀ front js, front <+: [0x59, 0x11, 0xFF] → decodeAll front = .ok js →
        js <+: is ∧ front.length ≤ 1 := by
  have hread : decodeAll [0x59, 0x11, 0xFF, 0xFE] = .ok [.dup, .sipush (-2)] := rfl
  have hrefused : decodeAll [0x59, 0x11, 0xFF] = .error 1 := rfl
  have hwhole := (codec [0x59, 0x11, 0xFF, 0xFE]).2.1 _ hread
  exact ⟨hread, hwhole, hrefused, (codec [0x59, 0x11, 0xFF]).2.2 1 hrefused⟩

end Instruction

end Defuse
