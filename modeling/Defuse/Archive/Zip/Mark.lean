import Defuse.Archive.Word

/-!
# Marks

Every part of an archive starts with four bytes that tell what it is.

* `Mark`, `Mark.bytes` — the parts and their marks;
* `Mark.read` — reads a mark that is known;
* `Mark.places` — where a mark stands in a byte string.
-/

namespace Defuse.Archive.Zip

/-- What a part of an archive is. -/
inductive Mark where
  /-- An entry. -/
  | entry
  /-- A header of the directory. -/
  | header
  /-- The end record. -/
  | endRecord
  /-- The wide end record. -/
  | wideRecord
  /-- What tells where the wide end record is. -/
  | locator
deriving DecidableEq, Repr

namespace Mark

/-- The four bytes of a mark. -/
def bytes : Mark → Bytes
  | entry => [0x50, 0x4B, 3, 4]
  | header => [0x50, 0x4B, 1, 2]
  | endRecord => [0x50, 0x4B, 5, 6]
  | wideRecord => [0x50, 0x4B, 6, 6]
  | locator => [0x50, 0x4B, 6, 7]

@[simp] theorem length_bytes (m : Mark) : m.bytes.length = 4 := by cases m <;> rfl

/-- Reads a mark that is known. -/
def read (m : Mark) : Reader Unit Unit := do
  let found ← Reader.bytes () 4
  if found = m.bytes then return () else throw ()

@[simp] theorem read_bytes (m : Mark) (rest : Bytes) :
    m.read (m.bytes ++ rest) = .ok ((), rest) := by cases m <;> rfl

/-- The places where a mark stands, the first byte being at `place`, with the bytes from there
on. -/
def places (m : Mark) (place : Nat) : Bytes → List (Nat × Bytes)
  | [] => []
  | b :: bs =>
    if m.bytes.isPrefixOf (b :: bs) then (place, b :: bs) :: m.places (place + 1) bs
    else m.places (place + 1) bs

end Mark

end Defuse.Archive.Zip
