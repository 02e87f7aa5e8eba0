import Defuse.Instances

/-!
# Byte strings

* `Bytes` — a byte string, first byte first;
* `ofWord16`, `ofWord32`, `ofWord64` — words with the most significant byte first, as class
  files have them, with `word16`, `word32`, `word64` the other way;
* `Reader` — reads a value off the front of a byte string;
* `Reader.many` — reads a counted list.
-/

namespace Defuse

/-- A byte string. -/
abbrev Bytes := List UInt8

namespace Bytes

/-- The two bytes of a word, most significant first. -/
def ofWord16 (w : UInt16) : Bytes := [(w >>> 8).toUInt8, w.toUInt8]

/-- The four bytes of a word, most significant first. -/
def ofWord32 (w : UInt32) : Bytes := ofWord16 (w >>> 16).toUInt16 ++ ofWord16 w.toUInt16

/-- The eight bytes of a word, most significant first. -/
def ofWord64 (w : UInt64) : Bytes := ofWord32 (w >>> 32).toUInt32 ++ ofWord32 w.toUInt32

/-- The word of two bytes. -/
def word16 (high low : UInt8) : UInt16 := (high.toUInt16 <<< 8) ||| low.toUInt16

/-- The word of two halves. -/
def word32 (high low : UInt16) : UInt32 := (high.toUInt32 <<< 16) ||| low.toUInt32

/-- The word of two halves. -/
def word64 (high low : UInt32) : UInt64 := (high.toUInt64 <<< 32) ||| low.toUInt64

@[simp] theorem length_ofWord16 (w : UInt16) : (ofWord16 w).length = 2 := rfl

@[simp] theorem length_ofWord32 (w : UInt32) : (ofWord32 w).length = 4 := rfl

end Bytes

/-- Reads a value off the front of a byte string and leaves the bytes behind it. -/
abbrev Reader (ε α : Type) := StateT Bytes (Except ε) α

namespace Reader

variable {ε α : Type}

/-- Reads the next byte; `short` is the error of a byte string that has ended. -/
def byte (short : ε) : Reader ε UInt8
  | b :: bs => .ok (b, bs)
  | [] => .error short

/-- Reads a word of two bytes. -/
def word16 (short : ε) : Reader ε UInt16 := do
  let high ← byte short
  let low ← byte short
  return Bytes.word16 high low

/-- Reads a word of four bytes. -/
def word32 (short : ε) : Reader ε UInt32 := do
  let high ← word16 short
  let low ← word16 short
  return Bytes.word32 high low

/-- Reads a word of eight bytes. -/
def word64 (short : ε) : Reader ε UInt64 := do
  let high ← word32 short
  let low ← word32 short
  return Bytes.word64 high low

/-- Reads as many bytes as told. -/
def bytes (short : ε) (n : Nat) : Reader ε Bytes := fun bs =>
  let front := bs.take n
  if front.length = n then .ok (front, bs.drop n) else .error short

/-- Reads items behind already read ones, which are given backwards. -/
def manyOnto (item : Reader ε α) : List α → Nat → Reader ε (List α)
  | acc, 0, bs => .ok (acc.reverse, bs)
  | acc, n + 1, bs =>
    match item bs with
    | .error e => .error e
    | .ok (a, bs) => manyOnto item (a :: acc) n bs

/-- Reads as many items as told. -/
def many (item : Reader ε α) (n : Nat) : Reader ε (List α) := manyOnto item [] n

@[simp] theorem byte_cons (short : ε) (b : UInt8) (bs : Bytes) :
    byte short (b :: bs) = .ok (b, bs) := rfl

@[simp] theorem byte_nil (short : ε) : byte short [] = .error short := rfl

/-- Bytes in front of others are read as they are. -/
theorem bytes_append (short : ε) (front rest : Bytes) :
    bytes short front.length (front ++ rest) = .ok (front, rest) := by
  simp [bytes]

@[simp] theorem many_zero (item : Reader ε α) (bs : Bytes) : many item 0 bs = .ok ([], bs) := rfl

/-- What is read already stays in front. -/
theorem manyOnto_eq (item : Reader ε α) (n : Nat) (acc : List α) (bs : Bytes) :
    manyOnto item acc n bs = (many item n bs).map fun (as, rest) => (acc.reverse ++ as, rest) := by
  induction n generalizing acc bs with
  | zero => simp [manyOnto, many, Except.map]
  | succ n ih =>
    unfold many manyOnto
    cases item bs with
    | error e => rfl
    | ok p =>
      simp only [ih (p.1 :: acc), ih [p.1]]
      cases many item n p.2 <;> simp [Except.map]

/-- A counted list is its first item and the rest of it. -/
theorem many_succ (item : Reader ε α) (n : Nat) (bs : Bytes) :
    many item (n + 1) bs = match item bs with
      | .error e => .error e
      | .ok (a, rest) => (many item n rest).map fun (as, rest) => (a :: as, rest) := by
  rw [show many item (n + 1) bs = manyOnto item [] (n + 1) bs from rfl, manyOnto]
  cases item bs with
  | error e => rfl
  | ok p => simp only [manyOnto_eq item n [p.1]]; rfl

end Reader

end Defuse
