import Defuse.Text.Utf16

namespace Defuse.Text.Utf8

/-!
# UTF-8

* `encode` — the bytes of a text;
* `decode` — the text of any bytes, where the longest beginning of a character that is not
  gone on with stands for U+FFFD, and so does a byte that begins none;
* `decode?` — the text whose bytes they are, if there is one.
-/

/-- The bytes of a text. -/
def encode (s : String) : List UInt8 := s.toList.flatMap String.utf8EncodeChar

/-- What the first byte of a character tells. -/
structure Head where
  /-- The number of bytes that go on with the character. -/
  tails : Nat
  /-- The least that the next of them can be; later ones can be any tail. -/
  least : UInt8
  /-- The greatest that the next of them can be. -/
  greatest : UInt8
  /-- The part of the code point that is known. -/
  value : Nat

/-- What a byte tells as the first one of a character, if it can be that.  Bounds on the next
byte keep out forms that are too long, halves of pairs, and what lies beyond Unicode. -/
def head? (b : UInt8) : Option Head :=
  if b < 0x80 then some ⟨0, 0x80, 0xBF, b.toNat⟩
  else if b < 0xC2 then none
  else if b < 0xE0 then some ⟨1, 0x80, 0xBF, b.toNat - 0xC0⟩
  else if b < 0xF0 then
    some ⟨2, if b = 0xE0 then 0xA0 else 0x80, if b = 0xED then 0x9F else 0xBF, b.toNat - 0xE0⟩
  else if b < 0xF5 then
    some ⟨3, if b = 0xF0 then 0x90 else 0x80, if b = 0xF4 then 0x8F else 0xBF, b.toNat - 0xF0⟩
  else none

/-- Reads the bytes that go on with a character; `none` where one of them is missing. -/
def readTails : Nat → UInt8 → UInt8 → Nat → List UInt8 → Option Char × List UInt8
  | 0, _, _, value, bs => (some (Char.ofNat value), bs)
  | _ + 1, _, _, _, [] => (none, [])
  | n + 1, least, greatest, value, b :: bs =>
    if least ≤ b ∧ b ≤ greatest then readTails n 0x80 0xBF (64 * value + b.toNat % 64) bs
    else (none, b :: bs)

theorem length_readTails_le (n : Nat) (least greatest : UInt8) (value : Nat)
    (bs : List UInt8) : (readTails n least greatest value bs).2.length ≤ bs.length := by
  induction n generalizing least greatest value bs with
  | zero => simp [readTails]
  | succ n ih =>
    cases bs with
    | nil => simp [readTails]
    | cons b bs =>
      simp only [readTails]
      split
      · exact Nat.le_trans (ih ..) (by simp)
      · simp

/-- Reads bytes behind an already read text, which is given backwards. -/
def decodeOnto (acc : List Char) (bs : List UInt8) : List Char :=
  match bs with
  | [] => acc.reverse
  | b :: bs =>
    match head? b with
    | none => decodeOnto (replacement :: acc) bs
    | some h =>
      let r := readTails h.tails h.least h.greatest h.value bs
      decodeOnto (r.1.getD replacement :: acc) r.2
termination_by bs.length
decreasing_by
  · simp
  · have := length_readTails_le h.tails h.least h.greatest h.value bs
    simp only [List.length_cons]
    omega

/-- The text of any bytes. -/
def decode (bs : List UInt8) : String := String.ofList (decodeOnto [] bs)

/-- The text whose bytes they are, if there is one.  Bytes of no text decode to a text in which
U+FFFD takes the place of other bytes, so that it has other bytes than they are. -/
def decode? (bs : List UInt8) : Option String :=
  let s := decode bs
  if encode s = bs then some s else none

end Defuse.Text.Utf8
