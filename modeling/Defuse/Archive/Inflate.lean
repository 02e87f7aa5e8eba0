import Defuse.Archive.Huffman
import Defuse.Archive.Word

/-!
# Compressed streams

A compressed stream is a row of blocks.  A block holds bytes as they are, or a row of
symbols, each of which is a byte or a repetition of bytes already written.

* `deflate` — writes a stream of blocks that hold bytes as they are;
* `inflate` — reads any stream to the end of its last block.
-/

namespace Defuse.Archive

/-! ### Writing -/

/-- The largest number of bytes that a block holds as they are. -/
def storedLimit : Nat := 65535

/-- A block that holds bytes as they are. -/
def storedBlock (last : Bool) (bs : Bytes) : Bytes :=
  (if last then 1 else 0) :: Word.bytes 2 bs.length ++ Word.bytes 2 (storedLimit - bs.length) ++ bs

/-- A stream of blocks that hold bytes as they are, behind already written bytes, which are
given backwards. -/
def storedOnto (acc : Bytes) (bs : Bytes) : Bytes :=
  if bs.length ≤ storedLimit then acc.reverse ++ storedBlock true bs
  else storedOnto ((storedBlock false (bs.take storedLimit)).reverse ++ acc) (bs.drop storedLimit)
termination_by bs.length
decreasing_by
  simp only [List.length_drop, storedLimit] at *
  omega

/-- A stream of blocks that hold bytes as they are. -/
def deflate (bs : Bytes) : Bytes := storedOnto [] bs

/-! ### Reading -/

/-- The bytes written and the bits left. -/
abbrev Progress := Except StreamError (Array UInt8 × Bits)

/-- A number of as many bits as told. -/
def number (n : Nat) (s : Bits) : Except StreamError (Nat × Bits) :=
  match s.take n with
  | some r => .ok r
  | none => .error .short

/-- The least length of a repetition and the number of further bits, for each symbol from
257 on. -/
def lengthTable : Array (Nat × Nat) := #[
  (3, 0), (4, 0), (5, 0), (6, 0), (7, 0), (8, 0), (9, 0), (10, 0), (11, 1), (13, 1), (15, 1),
  (17, 1), (19, 2), (23, 2), (27, 2), (31, 2), (35, 3), (43, 3), (51, 3), (59, 3), (67, 4),
  (83, 4), (99, 4), (115, 4), (131, 5), (163, 5), (195, 5), (227, 5), (258, 0)]

/-- The least distance of a repetition and the number of further bits, for each symbol. -/
def distanceTable : Array (Nat × Nat) := #[
  (1, 0), (2, 0), (3, 0), (4, 0), (5, 1), (7, 1), (9, 2), (13, 2), (17, 3), (25, 3), (33, 4),
  (49, 4), (65, 5), (97, 5), (129, 6), (193, 6), (257, 7), (385, 7), (513, 8), (769, 8),
  (1025, 9), (1537, 9), (2049, 10), (3073, 10), (4097, 11), (6145, 11), (8193, 12), (12289, 12),
  (16385, 13), (24577, 13)]

/-- A number from a table, with its further bits. -/
def fromTable (table : Array (Nat × Nat)) (symbol : Nat) (s : Bits) :
    Except StreamError (Nat × Bits) :=
  match table[symbol]? with
  | none => .error .corrupt
  | some (least, extra) =>
    match number extra s with
    | .error e => .error e
    | .ok (n, s) => .ok (least + n, s)

/-- The byte at a distance back; before the first byte there are zeros. -/
def byteBack (out : Array UInt8) (distance : Nat) : UInt8 :=
  if out.size < distance then 0 else out.getD (out.size - distance) 0

/-- Repeats bytes from a distance back, one after another, so that a repetition can go over
bytes that it wrote itself. -/
def repeatBack (distance : Nat) : Nat → Array UInt8 → Array UInt8
  | 0, out => out
  | n + 1, out => repeatBack distance n (out.push (byteBack out distance))

/-- Reads the length and the distance of a repetition. -/
def repetition (distances : CodeTree) (symbol : Nat) (s : Bits) :
    Except StreamError (Nat × Nat × Bits) := do
  let (length, s) ← fromTable lengthTable (symbol - 257) s
  let (code, s) ← distances.decode s
  let (distance, s) ← fromTable distanceTable code s
  return (length, distance, s)

/-- Reads symbols up to the mark of the end of the block.  Every symbol takes a bit, so
`fuel` bits are read in `fuel` steps. -/
def symbols (literals distances : CodeTree) : Nat → Array UInt8 → Bits → Progress
  | 0, _, _ => .error .short
  | fuel + 1, out, s =>
    match literals.decode s with
    | .error e => .error e
    | .ok (symbol, s) =>
      if symbol < 256 then symbols literals distances fuel (out.push symbol.toUInt8) s
      else if symbol = 256 then .ok (out, s)
      else
        match repetition distances symbol s with
        | .error e => .error e
        | .ok (length, distance, s) =>
          symbols literals distances fuel (repeatBack distance length out) s

/-- Reads a block that holds bytes as they are. -/
def stored (out : Array UInt8) (s : Bits) : Progress :=
  match s.align with
  | a :: b :: c :: d :: bs =>
    let length := a.toNat + 256 * b.toNat
    -- the length is followed by its complement
    if length + (c.toNat + 256 * d.toNat) ≠ storedLimit then .error .corrupt
    else
      let front := bs.take length
      if front.length < length then .error .short
      else .ok (out ++ front, .ofBytes (bs.drop length))
  | _ => .error .short

/-! ### Described codes -/

/-- The order in which the lengths of the code for lengths are written. -/
def lengthOrder : List Nat := [16, 17, 18, 0, 8, 7, 9, 6, 10, 5, 11, 4, 12, 3, 13, 2, 14, 1, 15]

/-- Reads numbers of three bits. -/
def threeBits : Nat → Bits → Except StreamError (List Nat × Bits)
  | 0, s => .ok ([], s)
  | n + 1, s => do
    let (v, s) ← number 3 s
    let (vs, s) ← threeBits n s
    return (v :: vs, s)

/-- Reads the lengths of a code behind already read ones, which are given backwards: a symbol
is a length, or it repeats the last length or zero. -/
def codeLengths (code : CodeTree) (wanted : Nat) :
    Nat → List Nat → Bits → Except StreamError (List Nat × Bits)
  | 0, acc, s => if acc.length = wanted then .ok (acc.reverse, s) else .error .corrupt
  | fuel + 1, acc, s =>
    -- a repetition may not go beyond the end of the list
    if wanted ≤ acc.length then
      if acc.length = wanted then .ok (acc.reverse, s) else .error .corrupt
    else do
      let (symbol, s) ← code.decode s
      let again (least extra value : Nat) := do
        let (n, s) ← number extra s
        codeLengths code wanted fuel (List.replicate (least + n) value ++ acc) s
      match symbol, acc with
      | 16, last :: _ => again 3 2 last
      | 16, [] => .error .corrupt
      | 17, _ => again 3 3 0
      | 18, _ => again 11 7 0
      | n, _ => codeLengths code wanted fuel (n :: acc) s

/-- A code of lengths, or a corrupt stream. -/
def codeOf (sparse : Bool) (lengths : List Nat) : Except StreamError CodeTree :=
  match ofLengths? sparse lengths with
  | some code => .ok code
  | none => .error .corrupt

/-- The greatest number of symbols for bytes and lengths. -/
def literalLimit : Nat := 286

/-- The greatest number of symbols for distances. -/
def distanceLimit : Nat := 30

/-- Reads the description of two codes, for bytes and lengths and for distances. -/
def describedCodes (s : Bits) : Except StreamError (CodeTree × CodeTree × Bits) := do
  let (n, s) ← number 5 s
  let literals := n + 257
  let (n, s) ← number 5 s
  let distances := n + 1
  let (lengths, s) ← number 4 s
  if literalLimit < literals || distanceLimit < distances then throw .corrupt
  let (widths, s) ← threeBits (lengths + 4) s
  -- the widths are written in an order of their own, and those at the end may be left out
  let described := lengthOrder.zip widths
  let widthOf (n : Nat) := ((described.find? (·.1 = n)).map (·.2)).getD 0
  let code ← codeOf false ((List.range 19).map widthOf)
  let (all, s) ← codeLengths code (literals + distances) (literals + distances) [] s
  let first ← codeOf true (all.take literals)
  let second ← codeOf true (all.drop literals)
  return (first, second, s)

/-- The lengths of the code for bytes and lengths that needs no description. -/
def usualLengths : List Nat :=
  List.replicate 144 8 ++ List.replicate 112 9 ++ List.replicate 24 7 ++ List.replicate 8 8

/-- The two codes that need no description. -/
def usualCodes : Except StreamError (CodeTree × CodeTree) := do
  return (← codeOf false usualLengths, ← codeOf false (List.replicate 32 5))

/-- The codes of a block of symbols. -/
def codesOf (kind : Nat) (s : Bits) : Except StreamError (CodeTree × CodeTree × Bits) := do
  if kind = 1 then
    let (literals, distances) ← usualCodes
    return (literals, distances, s)
  else if kind = 2 then describedCodes s
  else .error .corrupt

/-- Reads a block behind its mark: `fuel` is at least the number of bits left. -/
def block (fuel kind : Nat) (out : Array UInt8) (s : Bits) : Progress :=
  if kind = 0 then stored out s
  else
    match codesOf kind s with
    | .error e => .error e
    | .ok (literals, distances, s) => symbols literals distances fuel out s

/-- Reads blocks up to the last one. -/
def blocks (total : Nat) : Nat → Array UInt8 → Bits → Except StreamError Bytes
  | 0, _, _ => .error .short
  | fuel + 1, out, s =>
    match s.take 3 with
    | none => .error .short
    | some (mark, s) =>
      match block total (mark / 2) out s with
      | .error e => .error e
      | .ok (out, s) => if mark % 2 = 1 then .ok out.toList else blocks total fuel out s

/-- Reads a stream.  What stands behind its last block is left out. -/
def inflate (bs : Bytes) : Except StreamError Bytes :=
  let total := 8 * bs.length + 1
  blocks total total #[] (.ofBytes bs)

end Defuse.Archive
