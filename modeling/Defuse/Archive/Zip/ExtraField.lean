import Defuse.Archive.Crc32
import Defuse.Archive.Zip.Header

/-!
# Extra fields

A header of the directory can end in extra fields, each with the number of its kind and its
length in front.  They can replace what the header tells.

* `Stop`, `FieldReader` — reads a field into a header; what has been read when the bytes end
  counts, but a field that is not in order spoils the header;
* `ExtraField.content` — the kinds of fields that are understood; the others are skipped;
* `Header.withFields?`, `Header.read` — a header with its extra fields.
-/

namespace Defuse.Archive.Zip

/-- Why no more fields are read. -/
inductive Stop where
  /-- The bytes end. -/
  | short
  /-- A field is not in order. -/
  | refused
deriving DecidableEq, Repr

/-- Reads fields off the front of a byte string into a header. -/
abbrev FieldReader (α : Type) := ExceptT Stop (StateM (Header × Bytes)) α

namespace ExtraField

/-! ### Steps -/

/-- Reads as many bytes as told. -/
def take (n : Nat) : FieldReader Bytes := do
  let (h, bs) ← get
  let front := bs.take n
  if front.length < n then throw .short
  set (h, bs.drop n)
  return front

/-- Skips as many bytes as told. -/
def skip (n : Nat) : FieldReader Unit := do
  let _ ← take n

/-- Reads a word of a given width. -/
def word (width : Nat) : FieldReader Nat := Word.ofBytes <$> take width

/-- The header as it has become. -/
def header : FieldReader Header := do return (← get).1

/-- Changes the header. -/
def change (f : Header → Header) : FieldReader Unit := modify fun (h, bs) => (f h, bs)

/-- Refuses the field unless a condition holds. -/
def require (c : Bool) : FieldReader Unit := if c then return () else throw .refused

/-! ### Kinds -/

/-- The length of a field of wide numbers that has all three. -/
def allWide : Nat := 24

/-- Reads a wide number in place of one of the header, if that shows the limit or the field has
room for all wide numbers.  Gives the number of bytes it took. -/
def wideNumber (length shown : Nat) (replace : Nat → Header → Header) : FieldReader Nat := do
  if allWide ≤ length || shown = Word.limit 4 then
    let n ← word 8
    change (replace n)
    return 8
  else return 0

/-- Wide numbers: the size, the number of bytes of the data, and the start. -/
def wideNumbers (length : Nat) : FieldReader Unit := do
  let h ← header
  let size ← wideNumber length h.size fun n h => { h with size := n }
  let dataSize ← wideNumber length h.dataSize fun n h => { h with dataSize := n }
  let start ← wideNumber length h.start fun n h => { h with start := n }
  let taken := size + dataSize + start
  require (taken ≤ length)
  skip (length - taken)

/-- Times in small steps: one attribute with three times. -/
def fineTimes (length : Nat) : FieldReader Unit := do
  require (length = 32)
  skip 4
  require ((← word 2) = 1)
  require ((← word 2) = 24)
  skip 24

/-- The maker of the encryption that is known. -/
def sealMaker : Nat := 0x4541

/-- An encryption: its version, its maker and its strength, and the method of what has been
encrypted. -/
def encryption (length : Nat) : FieldReader Unit := do
  require (length = 7)
  let version ← word 2
  let maker ← word 2
  let strength ← word 1
  let method ← word 2
  require (maker = sealMaker)
  require (version = 1 || version = 2)
  require (1 ≤ strength && strength ≤ 3)
  change fun h => { h with method, isSealed := true }

/-- Times in seconds: flags tell which of three there are, of which the first can be alone. -/
def times (length : Nat) : FieldReader Unit := do
  let flags ← word 1
  let marked := (List.range 8).countP fun i => flags.testBit i
  require (length = 5 || length = 1 + 4 * marked)
  require (flags < 8)
  skip (length - 1)

/-- A text in UTF-8 that takes the place of some bytes, which the check sum must fit. -/
def replacement (length : Nat) (replaced : Bytes) : FieldReader String := do
  skip 1
  let checksum ← word 4
  require (5 ≤ length)
  let bs ← take (length - 5)
  require ((Crc32.checksum replaced).toNat = checksum)
  match Text.Utf8.decode? bs with
  | some s => return s
  | none => throw .refused

/-- A comment in UTF-8. -/
def comment (length : Nat) : FieldReader Unit := do
  let s ← replacement length (Text.Utf8.encode (← header).comment)
  change fun h => { h with comment := s }

/-- A name in UTF-8. -/
def name (length : Nat) : FieldReader Unit := do
  let s ← replacement length (← header).name
  change fun h =>
    { h with name := Text.Utf8.encode s, flags := h.flags ||| 2 ^ utf8Flag }

/-- What stands in a field of a kind. -/
def content (kind length : Nat) : FieldReader Unit :=
  match kind with
  | 0x0001 => wideNumbers length
  | 0x000A => fineTimes length
  | 0x5455 => times length
  | 0x6375 => comment length
  | 0x7075 => name length
  | 0x9901 => encryption length
  | _ => skip length

/-- Reads fields to the end of the bytes; `fuel` is at least their number. -/
def all : Nat → FieldReader Unit
  | 0 => return ()
  | fuel + 1 => do
    if (← get).2.isEmpty then return ()
    let kind ← word 2
    let length ← word 2
    content kind length
    all fuel

end ExtraField

namespace Header

/-- The method number of an encryption, which a field must tell more about. -/
def sealedMethod : Nat := 99

/-- A header with its extra fields, if they are in order. -/
def withFields? (h : Header) (fields : Bytes) : Option Header :=
  match (ExtraField.all fields.length).run (h, fields) with
  | (.error .refused, _) => none
  | (_, (h, _)) => if h.method = sealedMethod ∧ h.isSealed = false then none else some h

/-- A header without extra fields stays as it is, unless its method needs one. -/
@[simp] theorem withFields?_nil (h : Header) :
    h.withFields? [] = if h.method = sealedMethod ∧ h.isSealed = false then none else some h :=
  rfl

/-- Reads a header of the directory. -/
def read : Reader Unit Header := do
  let (h, fields) ← readPlain
  match h.withFields? fields with
  | some h => return h
  | none => throw ()

end Header

end Defuse.Archive.Zip
