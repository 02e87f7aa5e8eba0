import Defuse.Proofs.Descriptors

namespace Defuse

open Text

/-!
# Descriptors at byte positions

* `Utf8.exists_of_ascii` — where a byte below 128 stands, a character begins;
* `Utf8.exists_of_octets_append` — the bytes of a text begin only those texts that it begins;
* `JavaType.fromByte_eq_some` — the positions where a text can be cut;
* `JavaType.scan_of_split` — where a character begins, no cut is bad, and what is read is what
  `JavaType.read` reads off the characters from there on;
* `JavaType.StandsAt` — the bytes between two positions are the descriptor of a type;
* `JavaType.readAt_eq_some_iff` — a type is read exactly where its descriptor stands;
* `JavaType.type_at` — so no cut is bad at any position, and neither what is in front of a
  descriptor nor what is behind it plays a part.
-/

/-! ### Bytes of characters -/

namespace Text.Utf8

/-- The bytes of characters. -/
def octets (cs : List Char) : Bytes := cs.flatMap String.utf8EncodeChar

@[simp] theorem octets_nil : octets [] = [] := rfl

@[simp] theorem octets_cons (c : Char) (cs : List Char) :
    octets (c :: cs) = String.utf8EncodeChar c ++ octets cs := rfl

theorem octets_append (cs ds : List Char) : octets (cs ++ ds) = octets cs ++ octets ds :=
  List.flatMap_append

/-- Only the empty text has no bytes. -/
theorem octets_eq_nil {cs : List Char} : octets cs = [] ↔ cs = [] := by
  cases cs with
  | nil => simp
  | cons c cs => simp [String.utf8EncodeChar_ne_nil]

/-- An ASCII character is one byte, which is its code. -/
theorem utf8EncodeChar_of_lt {c : Char} (h : c.toNat < 128) :
    String.utf8EncodeChar c = [UInt8.ofNat c.toNat] :=
  if_pos (Nat.le_of_lt_succ h)

/-- A character that is not in ASCII has no byte below 128. -/
theorem le_of_mem_utf8EncodeChar {c : Char} (h : 128 ≤ c.toNat) :
    ∀ b ∈ String.utf8EncodeChar c, 128 ≤ b.toNat := by
  have hc : 128 ≤ c.val.toNat := h
  have hlt : c.val.toNat < 0x110000 := by
    have := c.valid
    simp only [UInt32.isValidChar, Nat.isValidChar] at this
    omega
  unfold String.utf8EncodeChar
  generalize c.val.toNat = v at hc hlt
  dsimp only
  rw [if_neg (by omega)]
  -- two, three or four bytes
  split
  · simp
    omega
  · split
    · simp
      omega
    · simp
      omega

/-- A byte that is taken for a character is its code. -/
theorem toNat_ofUInt8 (b : UInt8) : (Char.ofUInt8 b).toNat = b.toNat :=
  UInt8.toNat_toUInt32 b

/-- An ASCII character is read back from its byte. -/
theorem ofUInt8_ofNat {c : Char} (h : c.toNat < 128) : Char.ofUInt8 (UInt8.ofNat c.toNat) = c := by
  apply Char.toNat_inj.mp
  rw [toNat_ofUInt8, UInt8.toNat_ofNat']
  omega

/-- Where a byte below 128 stands, a character begins, and it is that of the byte. -/
theorem exists_of_ascii {cs : List Char} {i : Nat} {b : UInt8} {bs : Bytes}
    (h : (octets cs).drop i = b :: bs) (hb : b.toNat < 128) :
    ∃ front back, cs = front ++ Char.ofUInt8 b :: back ∧ (octets front).length = i := by
  induction cs generalizing i with
  | nil => simp at h
  | cons c cs ih =>
    rw [octets_cons, List.drop_append] at h
    cases hown : (String.utf8EncodeChar c).drop i with
    | nil =>
      -- the byte belongs to a later character
      have hle : (String.utf8EncodeChar c).length ≤ i := List.drop_eq_nil_iff.mp hown
      rw [hown, List.nil_append] at h
      obtain ⟨front, back, rfl, hfront⟩ := ih h
      refine ⟨c :: front, back, rfl, ?_⟩
      rw [octets_cons, List.length_append, hfront]
      omega
    | cons first others =>
      rw [hown] at h
      obtain ⟨rfl, -⟩ := List.cons.inj h
      have hmem : first ∈ String.utf8EncodeChar c :=
        List.mem_of_mem_drop (hown ▸ List.mem_cons_self)
      have hascii : c.toNat < 128 := by
        refine Nat.lt_of_not_le fun hle => ?_
        exact absurd (le_of_mem_utf8EncodeChar hle first hmem) (Nat.not_le_of_lt hb)
      rw [utf8EncodeChar_of_lt hascii] at hown
      cases i with
      | zero =>
        obtain ⟨rfl, -⟩ := List.cons.inj hown
        exact ⟨[], cs, by rw [ofUInt8_ofNat hascii]; rfl, rfl⟩
      | succ i => simp at hown

/-- Characters with the same bytes behind them are the same. -/
theorem utf8EncodeChar_append_inj {c d : Char} {x y : Bytes}
    (h : String.utf8EncodeChar c ++ x = String.utf8EncodeChar d ++ y) : c = d ∧ x = y := by
  have hc := ByteArray.utf8DecodeChar?_utf8EncodeChar_append (c := c) (b := x.toByteArray)
  have hd := ByteArray.utf8DecodeChar?_utf8EncodeChar_append (c := d) (b := y.toByteArray)
  rw [← List.toByteArray_append] at hc hd
  rw [h, hd] at hc
  obtain rfl := Option.some.inj hc
  exact ⟨rfl, List.append_cancel_left h⟩

/-- The bytes of a text begin only those texts that it begins. -/
theorem exists_of_octets_append {cs ds : List Char} {x : Bytes}
    (h : octets cs = octets ds ++ x) : ∃ back, cs = ds ++ back ∧ octets back = x := by
  induction ds generalizing cs with
  | nil => exact ⟨cs, rfl, h⟩
  | cons d ds ih =>
    cases cs with
    | nil => simp [String.utf8EncodeChar_ne_nil] at h
    | cons c cs =>
      rw [octets_cons, octets_cons, List.append_assoc] at h
      obtain ⟨rfl, hrest⟩ := utf8EncodeChar_append_inj h
      obtain ⟨back, rfl, hx⟩ := ih hrest
      exact ⟨back, rfl, hx⟩

end Text.Utf8

/-! ### Cutting -/

namespace JavaType

open Utf8 (octets octets_cons octets_append)

/-- Adding up the sizes of the characters gives the number of bytes. -/
theorem bytesOf_eq (cs : List Char) : bytesOf cs = (octets cs).length := by
  -- on what has been added up so far
  have hfold (n : Nat) :
      cs.foldl (fun n c => n + c.utf8Size) n = n + (octets cs).length := by
    induction cs generalizing n with
    | nil => rfl
    | cons c cs ih =>
      rw [List.foldl_cons, ih, octets_cons, List.length_append, String.length_utf8EncodeChar,
        Nat.add_assoc]
  rw [bytesOf, hfold, Nat.zero_add]

/-- A text can be cut behind so many bytes as some of its characters take. -/
theorem fromByte_eq_some {cs back : List Char} {n : Nat} :
    fromByte cs n = some back ↔ ∃ front, cs = front ++ back ∧ (octets front).length = n := by
  -- one case for each way the search goes on: done, out of text, past a character, or inside one
  fun_induction fromByte cs n with
  | case1 cs =>
    constructor
    · intro h
      exact ⟨[], (Option.some.inj h), rfl⟩
    · rintro ⟨front, rfl, hlength⟩
      rw [List.length_eq_zero_iff, Utf8.octets_eq_nil] at hlength
      rw [hlength, List.nil_append]
  | case2 n =>
    constructor
    · intro h
      cases h
    · rintro ⟨front, hnil, hlength⟩
      obtain ⟨rfl, -⟩ := List.append_eq_nil_iff.mp hnil.symm
      cases hlength
  | case3 c cs n hfits ih =>
    rw [ih]
    constructor
    · rintro ⟨front, rfl, hlength⟩
      refine ⟨c :: front, rfl, ?_⟩
      rw [octets_cons, List.length_append, String.length_utf8EncodeChar, hlength,
        Nat.add_sub_cancel' hfits]
    · rintro ⟨front, hcs, hlength⟩
      cases front with
      | nil => cases hlength
      | cons d front =>
        obtain ⟨rfl, rfl⟩ := List.cons.inj hcs
        rw [octets_cons, List.length_append, String.length_utf8EncodeChar] at hlength
        exact ⟨front, rfl, by omega⟩
  | case4 c cs n hlong =>
    constructor
    · intro h
      cases h
    · rintro ⟨front, hcs, hlength⟩
      cases front with
      | nil => cases hlength
      | cons d front =>
        obtain ⟨rfl, rfl⟩ := List.cons.inj hcs
        rw [octets_cons, List.length_append, String.length_utf8EncodeChar] at hlength
        omega

variable {text : String} {front back : List Char}

/-- Between two characters a text can be cut. -/
theorem fromByte_append (front back : List Char) :
    fromByte (front ++ back) (octets front).length = some back :=
  fromByte_eq_some.mpr ⟨front, rfl, rfl⟩

/-- What is left behind a cut between two characters. -/
theorem cutFrom_of_split (h : text.toList = front ++ back) :
    cutFrom text (octets front).length = .ok back := by
  rw [cutFrom, h, fromByte_append]

/-- What is left between two cuts, both of them between characters. -/
theorem cut_of_split {middle : List Char} (h : text.toList = front ++ (middle ++ back)) :
    cut text (octets front).length ((octets front).length + (octets middle).length) =
      .ok middle := by
  have hstop : fromByte text.toList ((octets front).length + (octets middle).length) =
      some back := by
    rw [← List.length_append, ← octets_append, h, ← List.append_assoc, fromByte_append]
  rw [cut, hstop, h, fromByte_append]
  simp

/-! ### Reading where a character begins -/

/-- The position behind what is read, if this text is left. -/
def placed (text : String) : JavaType × List Char → JavaType × Nat
  | (t, rest) => (t, (octets text.toList).length - (octets rest).length)

/-- A class name is looked for in the bytes as it is in the characters, from a place between two of
them. -/
theorem scanClass_of_split (h : text.toList = front ++ back) :
    scanClass text (octets front).length = .ok ((readClass back).map (placed text)) := by
  have hbind {α : Type} (f : List Char → Except BadCut α) : (Except.ok back >>= f) = f back := rfl
  rw [scanClass, cutFrom_of_split h, hbind]
  split
  -- the bytes of the name end in front of the semicolon, which takes one byte itself
  · next hmem =>
    obtain ⟨name, rest, rfl, hname⟩ := List.eq_append_cons_of_mem hmem
    obtain ⟨hfront, hback⟩ := takeWhile_dropWhile_eq_iff.mpr ⟨hname, rfl (a := name ++ ';' :: rest)⟩
    dsimp only
    rw [readClass, hfront, hback, bytesOf_eq, cut_of_split h]
    cases name with
    | nil => rfl
    | cons c cs =>
      have hone : ';'.utf8Size = 1 := rfl
      have hnext : (octets front).length + (octets (c :: cs)).length + 1 =
          (octets text.toList).length - (octets rest).length := by
        rw [h, octets_append, octets_append, octets_cons ';']
        simp only [List.length_append, String.length_utf8EncodeChar, hone]
        omega
      show Except.ok (some (_, _)) = Except.ok (some (_, _))
      rw [hnext]
  -- without a semicolon no name ends
  · next hmem =>
    have hnone : readClass back = none := by
      cases hread : readClass back with
      | none => rfl
      | some found =>
        obtain ⟨name, -, -, rfl⟩ := readClass_eq_some_iff.mp hread
        exact absurd (by simp) hmem
    rw [hnone]
    rfl

/-- No type is spelled by a character that is not in ASCII. -/
theorem ofLetter?_of_le {c : Char} (h : 128 ≤ c.toNat) : ofLetter? c = none := by
  unfold ofLetter?
  split
  case h_10 => rfl
  all_goals exact absurd h (by decide)

/-- What starts with neither a bracket nor an `L` is a letter that stands for a type, or nothing. -/
theorem read_of_ne {c : Char} (hbracket : c ≠ '[') (hclass : c ≠ 'L') (cs : List Char) :
    read (c :: cs) = (ofLetter? c).map (·, cs) :=
  read.eq_4 c cs (fun h => hbracket h) (fun h => hclass h)

/-- Nothing is read off a byte that is no character in ASCII. -/
theorem scan_of_le {b : UInt8} (hb : 128 ≤ b.toNat) (bs : Bytes) (n : Nat) :
    scan text (b :: bs) n = .ok none := by
  have hc : 128 ≤ (Char.ofUInt8 b).toNat := by rwa [Utf8.toNat_ofUInt8]
  rw [scan]
  split
  · next heq => exact absurd (heq ▸ hc) (by decide)
  · next heq => exact absurd (heq ▸ hc) (by decide)
  · rw [ofLetter?_of_le hc]
    rfl

/-- Where a character begins, no cut is bad, and what is read is read off the characters from there
on. -/
theorem scan_of_split (h : text.toList = front ++ back) :
    scan text (octets back) (octets front).length = .ok ((read back).map (placed text)) := by
  -- by induction on the characters that are left, each of which is one byte or none that starts a
  -- type
  induction back generalizing front with
  | nil => rfl
  | cons c back ih =>
    by_cases hc : c.toNat < 128
    · have hfront : text.toList = (front ++ [c]) ++ back := by simpa using h
      have hone : (octets front).length + 1 = (octets (front ++ [c])).length := by
        rw [octets_append, octets_cons, Utf8.utf8EncodeChar_of_lt hc, List.length_append]
        rfl
      rw [octets_cons, Utf8.utf8EncodeChar_of_lt hc, List.singleton_append, scan,
        Utf8.ofUInt8_ofNat hc, hone]
      split
      · rw [ih hfront, read]
        cases read back with
        | none => rfl
        | some found =>
          obtain ⟨t, rest⟩ := found
          cases t <;> rfl
      · rw [scanClass_of_split hfront]
        rfl
      · next hbracket hclass =>
        have hnext : (octets text.toList).length - (octets back).length =
            (octets (front ++ [c])).length := by
          rw [hfront, octets_append, List.length_append, Nat.add_sub_cancel]
        rw [read_of_ne hbracket hclass, Option.map_map, ← hnext]
        rfl
    -- the first byte of a longer character is no ASCII letter, and the character is none either
    · have hle : 128 ≤ c.toNat := Nat.le_of_not_lt hc
      obtain ⟨b, bs, hbytes⟩ := List.exists_cons_of_ne_nil (String.utf8EncodeChar_ne_nil (c := c))
      have hb : 128 ≤ b.toNat :=
        Utf8.le_of_mem_utf8EncodeChar hle b (hbytes ▸ List.mem_cons_self)
      have hbracket : c ≠ '[' := by
        rintro rfl
        exact hc (by decide)
      have hclass : c ≠ 'L' := by
        rintro rfl
        exact hc (by decide)
      rw [octets_cons, hbytes, List.cons_append, scan_of_le hb, read_of_ne hbracket hclass,
        ofLetter?_of_le hle]
      rfl

/-! ### Any position -/

theorem encode_eq (text : String) : Utf8.encode text = octets text.toList := rfl

/-- From a place between two characters, the type that is read is the one that the characters
spell. -/
theorem scanAt_of_split (h : text.toList = front ++ back) :
    scanAt text (octets front).length = .ok ((read back).map (placed text)) := by
  rw [scanAt, encode_eq, h, octets_append, List.drop_left, scan_of_split h]

/-- A character begins at a position, or nothing is read there. -/
theorem split_or_scanAt_eq_none (text : String) (position : Nat) :
    (∃ front back, text.toList = front ++ back ∧ (octets front).length = position) ∨
      scanAt text position = .ok none := by
  rw [scanAt]
  cases hbytes : (Utf8.encode text).drop position with
  | nil => exact .inr rfl
  | cons b bs =>
    by_cases hb : b.toNat < 128
    · obtain ⟨front, back, htext, hlength⟩ := Utf8.exists_of_ascii hbytes hb
      exact .inl ⟨front, _, htext, hlength⟩
    · exact .inr (scan_of_le (Nat.le_of_not_lt hb) bs position)

/-- No cut is bad. -/
theorem scanAt_eq_ok (text : String) (position : Nat) :
    scanAt text position = .ok (readAt text position) := by
  have hok : ∃ found, scanAt text position = .ok found := by
    rcases split_or_scanAt_eq_none text position with ⟨front, back, htext, rfl⟩ | hnone
    · exact ⟨_, scanAt_of_split htext⟩
    · exact ⟨_, hnone⟩
  obtain ⟨found, hfound⟩ := hok
  rw [readAt, hfound]

/-! ### Where descriptors stand -/

/-- The bytes between two positions of a byte string are the descriptor of a type. -/
structure StandsAt (bs : Bytes) (start stop : Nat) (t : JavaType) : Prop where
  spellable : t.IsSpellable
  start_le : start ≤ stop
  stop_le : stop ≤ bs.length
  bytes : bs.extract start stop = octets t.descriptor

/-- A descriptor starts with an ASCII letter or a bracket. -/
theorem exists_descriptor_cons (t : JavaType) :
    ∃ c cs, t.descriptor = c :: cs ∧ c.toNat < 128 := by
  cases t <;> exact ⟨_, _, rfl, by decide⟩

/-- A descriptor takes a byte at least. -/
theorem length_octets_pos (t : JavaType) : 0 < (octets t.descriptor).length := by
  rw [List.length_pos_iff, Ne, Utf8.octets_eq_nil, ← List.length_eq_zero_iff]
  exact Nat.ne_of_gt t.width_pos

/-- A descriptor stands where the bytes from there on begin with it. -/
theorem standsAt_iff {bs : Bytes} {start stop : Nat} {t : JavaType} :
    StandsAt bs start stop t ↔ t.IsSpellable ∧
      (∃ behind, bs.drop start = octets t.descriptor ++ behind) ∧
        stop = start + (octets t.descriptor).length := by
  have hpos := t.length_octets_pos
  have hdrop : (bs.drop start).length = bs.length - start := List.length_drop
  -- the bytes from `start` to `stop` are the first ones of what is left from `start` on
  constructor
  · rintro ⟨hspell, hstart, hstop, hbytes⟩
    rw [List.extract_eq_take_drop] at hbytes
    have hlength := congrArg List.length hbytes
    rw [List.length_take, hdrop] at hlength
    refine ⟨hspell, ⟨(bs.drop start).drop (stop - start), ?_⟩, by omega⟩
    rw [← hbytes, List.take_append_drop]
  · rintro ⟨hspell, ⟨behind, hbytes⟩, rfl⟩
    have hlength := congrArg List.length hbytes
    rw [hdrop, List.length_append] at hlength
    refine ⟨hspell, by omega, by omega, ?_⟩
    rw [List.extract_eq_take_drop, Nat.add_sub_cancel_left, hbytes, List.take_left]

/-- Where a descriptor stands, it consists of characters of the text. -/
theorem StandsAt.split {position next : Nat} {t : JavaType}
    (h : StandsAt (Utf8.encode text) position next t) :
    ∃ front rest, text.toList = front ++ (t.descriptor ++ rest) ∧
      (octets front).length = position := by
  obtain ⟨hspell, ⟨behind, hbytes⟩, -⟩ := standsAt_iff.mp h
  obtain ⟨c, cs, hdescriptor, hc⟩ := t.exists_descriptor_cons
  have hfirst : (octets text.toList).drop position =
      UInt8.ofNat c.toNat :: (octets cs ++ behind) := by
    rw [← encode_eq, hbytes, hdescriptor, octets_cons, Utf8.utf8EncodeChar_of_lt hc]
    rfl
  have hascii : (UInt8.ofNat c.toNat).toNat < 128 := by
    rw [UInt8.toNat_ofNat']
    omega
  obtain ⟨front, back, htext, hlength⟩ := Utf8.exists_of_ascii hfirst hascii
  rw [encode_eq, htext, octets_append, ← hlength, List.drop_left] at hbytes
  obtain ⟨rest, hrest, -⟩ := Utf8.exists_of_octets_append hbytes
  exact ⟨front, rest, by rw [htext, hrest], hlength⟩

/-- A type is read exactly where its descriptor stands. -/
theorem readAt_eq_some_iff {position next : Nat} {t : JavaType} :
    readAt text position = some (t, next) ↔ StandsAt (Utf8.encode text) position next t := by
  -- between two characters, bytes and characters are read alike
  have hread {front back : List Char} (h : text.toList = front ++ back) :
      readAt text (octets front).length = (read back).map (placed text) :=
    Except.ok.inj ((scanAt_eq_ok _ _).symm.trans (scanAt_of_split h))
  have hnext {front rest : List Char} (h : text.toList = front ++ (t.descriptor ++ rest)) :
      (octets text.toList).length - (octets rest).length =
        (octets front).length + (octets t.descriptor).length := by
    rw [h, octets_append, octets_append, List.length_append, List.length_append]
    omega
  constructor
  -- a type is read only from between two characters, since a later byte of one starts no type
  · intro h
    rcases split_or_scanAt_eq_none text position with ⟨front, back, htext, rfl⟩ | hnone
    · rw [hread htext, Option.map_eq_some_iff] at h
      obtain ⟨⟨t', rest⟩, hback, hplaced⟩ := h
      obtain ⟨rfl, rfl⟩ := Prod.mk.inj hplaced
      obtain ⟨hspell, rfl⟩ := read_eq_some_iff.mp hback
      refine standsAt_iff.mpr ⟨hspell, ⟨octets rest, ?_⟩, hnext htext⟩
      rw [encode_eq, htext, octets_append, List.drop_left, octets_append]
    · rw [scanAt_eq_ok, Except.ok.injEq] at hnone
      rw [hnone] at h
      cases h
  · intro h
    obtain ⟨front, rest, htext, rfl⟩ := h.split
    obtain ⟨hspell, -, rfl⟩ := standsAt_iff.mp h
    rw [hread htext, read_eq_some_iff.mpr ⟨hspell, rfl⟩, Option.map_some, placed, hnext htext]

/-- The bytes of characters are those of the text that they make up. -/
theorem utf8ByteSize_ofList (cs : List Char) :
    (String.ofList cs).utf8ByteSize = (octets cs).length := by
  rw [← String.size_toByteArray, String.toByteArray_ofList]
  simp [List.utf8Encode, octets]

/-- A character begins behind a descriptor, or the text ends there. -/
theorem StandsAt.isValid {position next : Nat} {t : JavaType}
    (h : StandsAt (Utf8.encode text) position next t) :
    (String.Pos.Raw.mk next).IsValid text := by
  obtain ⟨front, rest, htext, rfl⟩ := h.split
  obtain ⟨-, -, rfl⟩ := standsAt_iff.mp h
  rw [String.Pos.Raw.isValid_iff_exists_append]
  refine ⟨String.ofList (front ++ t.descriptor), String.ofList rest, ?_, ?_⟩
  · rw [← String.ofList_append, List.append_assoc, ← htext, String.ofList_toList]
  · apply String.Pos.Raw.ext
    rw [String.byteIdx_rawEndPos, utf8ByteSize_ofList, octets_append, List.length_append]

/-- A type takes at least one byte. -/
theorem StandsAt.start_lt {bs : Bytes} {start stop : Nat} {t : JavaType}
    (h : StandsAt bs start stop t) : start < stop := by
  obtain ⟨-, -, rfl⟩ := standsAt_iff.mp h
  exact Nat.lt_add_of_pos_right t.length_octets_pos

/-- A descriptor stands wherever its bytes do. -/
theorem StandsAt.of_extract_eq {bs other : Bytes} {start stop place : Nat} {t : JavaType}
    (h : StandsAt bs start stop t)
    (heq : other.extract place (place + (stop - start)) = bs.extract start stop) :
    StandsAt other place (place + (stop - start)) t := by
  have hpos := h.start_lt
  have hstop := h.stop_le
  have hlength := congrArg List.length heq
  simp only [List.extract_eq_take_drop, List.length_take, List.length_drop] at hlength
  exact ⟨h.spellable, by omega, by omega, heq.trans h.bytes⟩

/-- What stands at a position depends on the bytes from there on alone. -/
theorem StandsAt.of_drop_eq {bs other : Bytes} {start stop place : Nat} {t : JavaType}
    (h : StandsAt bs start stop t) (heq : other.drop place = bs.drop start) :
    StandsAt other place (stop - start + place) t := by
  obtain ⟨hspell, ⟨behind, hbytes⟩, rfl⟩ := standsAt_iff.mp h
  exact standsAt_iff.mpr ⟨hspell, ⟨behind, heq.trans hbytes⟩, by omega⟩

/-- What is read at a position depends on the bytes from there on alone. -/
theorem readAt_of_drop_eq {text other : String} {position place : Nat}
    (h : (Utf8.encode other).drop place = (Utf8.encode text).drop position) :
    readAt other place =
      (readAt text position).map fun (t, next) => (t, next - position + place) := by
  cases hread : readAt text position with
  | some found =>
    obtain ⟨t, next⟩ := found
    exact readAt_eq_some_iff.mpr ((readAt_eq_some_iff.mp hread).of_drop_eq h)
  | none =>
    -- otherwise the other text would be read to a type, and so would this one
    cases hother : readAt other place with
    | none => rfl
    | some found =>
      obtain ⟨t, next⟩ := found
      have hback := readAt_eq_some_iff.mpr ((readAt_eq_some_iff.mp hother).of_drop_eq h.symm)
      rw [hread] at hback
      cases hback

/-- At every position of a text, behind its end and within a character too, no cut is bad, and a
type is read exactly if its descriptor stands there.  A character begins behind it, or the text
ends.  The bytes in front play no part, and neither do those behind what is read. -/
theorem type_at (text : String) (position : Nat) :
    scanAt text position = .ok (readAt text position) ∧
    (∀ t next, readAt text position = some (t, next) ↔
      StandsAt (Utf8.encode text) position next t) ∧
    (∀ t next, readAt text position = some (t, next) →
      position < next ∧ next ≤ (Utf8.encode text).length ∧
        (String.Pos.Raw.mk next).IsValid text) ∧
    (∀ other place, (Utf8.encode other).drop place = (Utf8.encode text).drop position →
      readAt other place =
        (readAt text position).map fun (t, next) => (t, next - position + place)) ∧
    ∀ t next, readAt text position = some (t, next) → ∀ other place,
      (Utf8.encode other).extract place (place + (next - position)) =
        (Utf8.encode text).extract position next →
      readAt other place = some (t, place + (next - position)) := by
  refine ⟨scanAt_eq_ok text position, fun t next => readAt_eq_some_iff, ?_, ?_, ?_⟩
  · intro t next hread
    have hstands := readAt_eq_some_iff.mp hread
    exact ⟨hstands.start_lt, hstands.stop_le, hstands.isValid⟩
  · intro other place hsame
    exact readAt_of_drop_eq hsame
  · intro t next hread other place hsame
    exact readAt_eq_some_iff.mpr ((readAt_eq_some_iff.mp hread).of_extract_eq hsame)

/-- The bracket is the third byte, and the name between `L` and the semicolon takes two. -/
example : readAt "é[Lé;I" 2 = some (.array (.reference "é"), 7) := by decide +kernel

end JavaType

end Defuse
