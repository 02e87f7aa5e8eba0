import Defuse.Archive.Zip.Mark
import Defuse.Text.CodePage437
import Defuse.Text.Utf8

/-!
# Headers

Every entry has a header in the directory, and a shorter one in front of its data.

* `Header` — what a header tells;
* `Header.readPlain`, `Header.write` — the header of the directory as bytes; its extra fields
  are read as bytes here;
* `Header.readGap`, `Header.writeEntry` — the header in front of the data;
* `Header.mode`, `Header.nameText` — what the numbers and bytes of a header mean.
-/

namespace Defuse.Archive.Zip

/-- What a header tells. -/
structure Header where
  /-- The system that made the entry. -/
  system : Nat
  /-- The flags. -/
  flags : Nat
  /-- The number of the method. -/
  method : Nat
  /-- The time of day of the last change. -/
  time : Nat
  /-- The date of the last change. -/
  date : Nat
  /-- The check sum. -/
  checksum : Nat
  /-- The number of bytes of the data. -/
  dataSize : Nat
  /-- The number of bytes of the content. -/
  size : Nat
  /-- The file attributes of the system. -/
  fileAttributes : Nat
  /-- Where the entry starts. -/
  start : Nat
  /-- The name. -/
  name : Bytes
  /-- The comment. -/
  comment : String := ""
  /-- Whether an extra field tells how the data are encrypted. -/
  isSealed : Bool := false
deriving DecidableEq, Repr

/-- The version of the format that is written. -/
def formatVersion : Nat := 45

/-- The version of the format that a reader of an entry needs, by the number of its method. -/
def methodVersion (method : Nat) : Nat :=
  if method = 0 then 10 else if method = 8 then 20 else formatVersion

/-- The system whose file attributes hold a mode. -/
def unixSystem : Nat := 3

/-- The system without permissions, except that a file can be read-only. -/
def dosSystem : Nat := 0

/-- The flag of encrypted data. -/
def encryptedFlag : Nat := 0

/-- The flag of a name and a comment in UTF-8. -/
def utf8Flag : Nat := 11

/-- The text of bytes in a header with some flags. -/
def textOf (flags : Nat) (bs : Bytes) : String :=
  if flags.testBit utf8Flag then Text.Utf8.decode bs else Text.CodePage437.decode bs

namespace Header

/-! ### In the directory -/

/-- Reads a header, and the bytes of its extra fields. -/
def readPlain : Reader Unit (Header × Bytes) := do
  let half := Word.read () 2
  let word := Word.read () 4
  Mark.header.read
  let madeBy ← half
  -- the version that a reader needs is not looked at
  let _ ← half
  let flags ← half
  let method ← half
  let time ← half
  let date ← half
  let checksum ← word
  let dataSize ← word
  let size ← word
  let nameLength ← half
  let fieldsLength ← half
  let commentLength ← half
  -- neither are the part that the entry starts in and its internal attributes
  let _ ← half
  let _ ← half
  let fileAttributes ← word
  let start ← word
  let name ← Reader.bytes () nameLength
  let fields ← Reader.bytes () fieldsLength
  let comment ← Reader.bytes () commentLength
  let h : Header := {
    system := madeBy / 256, flags, method, time, date, checksum, dataSize, size, fileAttributes,
    start, name, comment := textOf flags comment }
  return (h, fields)

/-- Whether a size is more than its word has room for. -/
def isWide (h : Header) : Bool := Word.limit 4 < h.size || Word.limit 4 < h.dataSize

/-- A word of a header: a number that it has no room for is written as the greatest one. -/
def clamped (n : Nat) : Bytes := Word.bytes 4 (min n (Word.limit 4))

/-- The extra field of an entry that is wide, whose numbers are left zero. -/
def wideField (h : Header) : Bytes :=
  if h.isWide then Word.bytes 2 1 ++ Word.bytes 2 16 ++ Word.bytes 8 0 ++ Word.bytes 8 0 else []

/-- The version of the format that a reader of an entry needs. -/
def neededVersion (h : Header) : Nat :=
  if h.isWide then formatVersion else methodVersion h.method

/-- The bytes that a header of the directory and the header of its entry share. -/
def common (h : Header) : Bytes :=
  Word.bytes 2 h.neededVersion ++ Word.bytes 2 h.flags ++ Word.bytes 2 h.method ++
    Word.bytes 2 h.time ++ Word.bytes 2 h.date ++ Word.bytes 4 h.checksum ++
    clamped h.dataSize ++ clamped h.size ++ Word.bytes 2 h.name.length ++
    Word.bytes 2 h.wideField.length

/-- The bytes of a header of the directory. -/
def write (h : Header) : Bytes :=
  let comment := Text.Utf8.encode h.comment
  Mark.header.bytes ++ Word.bytes 2 (256 * h.system + formatVersion) ++ h.common ++
    Word.bytes 2 comment.length ++ Word.bytes 2 0 ++ Word.bytes 2 0 ++
    Word.bytes 4 h.fileAttributes ++ clamped h.start ++ h.name ++ h.wideField ++ comment

/-! ### In front of the data -/

/-- The number of bytes of the header of an entry, without its name and extra fields. -/
def entryLength : Nat := 30

/-- Reads the header of an entry up to its name, and gives how many bytes stand between that
and the data. -/
def readGap : Reader Unit Nat := do
  Mark.entry.read
  let _ ← Reader.bytes () 22
  let nameLength ← Word.read () 2
  let fieldsLength ← Word.read () 2
  return nameLength + fieldsLength

/-- The bytes of an entry with its header. -/
def writeEntry (h : Header) (data : Bytes) : Bytes :=
  Mark.entry.bytes ++ h.common ++ h.name ++ h.wideField ++ data

/-- The header of an entry is as long as its fixed part, its name and its extra field. -/
@[simp] theorem length_writeEntry (h : Header) (data : Bytes) :
    (h.writeEntry data).length =
      entryLength + h.name.length + h.wideField.length + data.length := by
  simp only [writeEntry, common, clamped, entryLength, List.length_append, Word.length_bytes,
    Mark.length_bytes]

/-! ### Meaning -/

/-- The mode that file attributes give. -/
def mode (h : Header) : Option Nat :=
  if h.fileAttributes = 0 then none
  else if h.system = unixSystem then some (h.fileAttributes / 65536)
  else if h.system = dosSystem then
    let permissions := if h.fileAttributes.testBit 4 then 0o775 else 0o664
    some (if h.fileAttributes.testBit 0 then permissions &&& 0o555 else permissions)
  else none

/-- The text of the name. -/
def nameText (h : Header) : String := textOf h.flags h.name

end Header

end Defuse.Archive.Zip
