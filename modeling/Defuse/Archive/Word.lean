import Defuse.Bytes

/-!
# Words of archives

Archives have the least significant byte of a word first.

* `Word.bytes` — the bytes of a word of a given width, with `Word.ofBytes` the other way;
* `Word.limit` — the greatest word of a given width;
* `Word.read` — reads a word.
-/

namespace Defuse.Archive.Word

/-- The bytes of a word of a given width. -/
def bytes : Nat → Nat → Bytes
  | 0, _ => []
  | width + 1, n => n.toUInt8 :: bytes width (n / 256)

/-- The word of some bytes. -/
def ofBytes : Bytes → Nat
  | [] => 0
  | b :: bs => b.toNat + 256 * ofBytes bs

/-- The greatest word of a given width. -/
def limit (width : Nat) : Nat := 256 ^ width - 1

/-- Reads a word of a given width. -/
def read {ε : Type} (short : ε) (width : Nat) : Reader ε Nat :=
  ofBytes <$> Reader.bytes short width

@[simp] theorem length_bytes (width n : Nat) : (bytes width n).length = width := by
  induction width generalizing n with
  | zero => rfl
  | succ width ih => simp [bytes, ih]

/-- Bytes keep a word that their width has room for, and the remainder of any other. -/
@[simp] theorem ofBytes_bytes (width n : Nat) : ofBytes (bytes width n) = n % 256 ^ width := by
  induction width generalizing n with
  | zero => simp [bytes, ofBytes, Nat.mod_one]
  | succ width ih =>
    have low : n.toUInt8.toNat = n % 256 := UInt8.toNat_ofNat'
    simp only [bytes, ofBytes, ih, low, Nat.pow_succ', Nat.mod_mul]

/-- What is read is what was written, and the bytes behind it are left. -/
@[simp] theorem read_bytes {ε : Type} (short : ε) (width n : Nat) (rest : Bytes) :
    read short width (bytes width n ++ rest) = .ok (n % 256 ^ width, rest) := by
  have front := Reader.bytes_append short (bytes width n) rest
  rw [length_bytes] at front
  simp only [read, Functor.map, StateT.map, front, bind, Except.bind, ofBytes_bytes]
  rfl

end Defuse.Archive.Word
