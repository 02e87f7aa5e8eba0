import Defuse.Archive.Zip.Mark

/-!
# End records

An archive ends in a record that tells where its directory is.  Numbers that are too great for
it stand in a wide record before it, and a locator between the two tells where that is.  Bytes
in front of the first entry shift everything.

* `EndRecord`, `WideRecord`, `Locator` — the three records, with `read` and `write`;
* `Site`, `EndRecord.site?` — where the directory of an end record is;
* `writeEnd` — the records at the end of an archive.
-/

namespace Defuse.Archive.Zip

/-! ### Records -/

/-- The record at the end of an archive. -/
structure EndRecord where
  /-- The number of this part of the archive. -/
  part : Nat
  /-- The number of the part that holds the directory. -/
  directoryPart : Nat
  /-- The number of entries in this part. -/
  entriesHere : Nat
  /-- The number of entries. -/
  entries : Nat
  /-- The number of bytes of the directory. -/
  directorySize : Nat
  /-- Where the directory starts. -/
  directoryStart : Nat
  /-- The comment. -/
  comment : Bytes
deriving DecidableEq, Repr

namespace EndRecord

/-- Reads an end record. -/
def read : Reader Unit EndRecord := do
  let half := Word.read () 2
  let word := Word.read () 4
  Mark.endRecord.read
  let part ← half
  let directoryPart ← half
  let entriesHere ← half
  let entries ← half
  let directorySize ← word
  let directoryStart ← word
  let commentLength ← half
  let comment ← Reader.bytes () commentLength
  return { part, directoryPart, entriesHere, entries, directorySize, directoryStart, comment }

/-- The bytes of an end record. -/
def write (r : EndRecord) : Bytes :=
  Mark.endRecord.bytes ++ Word.bytes 2 r.part ++ Word.bytes 2 r.directoryPart ++
    Word.bytes 2 r.entriesHere ++ Word.bytes 2 r.entries ++ Word.bytes 4 r.directorySize ++
    Word.bytes 4 r.directoryStart ++ Word.bytes 2 r.comment.length ++ r.comment

/-- Whether a number of an end record can be too great for it. -/
def isFull (r : EndRecord) : Bool :=
  r.entries = Word.limit 2 || r.directoryStart = Word.limit 4

end EndRecord

/-- The record for numbers that the end record has no room for. -/
structure WideRecord where
  /-- The number of bytes behind this number. -/
  length : Nat
  /-- The version of the format that the archive was made for. -/
  madeBy : Nat
  /-- The version of the format that a reader needs. -/
  needed : Nat
  /-- The number of this part of the archive. -/
  part : Nat
  /-- The number of the part that holds the directory. -/
  directoryPart : Nat
  /-- The number of entries in this part. -/
  entriesHere : Nat
  /-- The number of entries. -/
  entries : Nat
  /-- The number of bytes of the directory. -/
  directorySize : Nat
  /-- Where the directory starts. -/
  directoryStart : Nat
deriving DecidableEq, Repr

namespace WideRecord

/-- The least number of bytes behind the length. -/
def leastLength : Nat := 44

/-- The number of bytes up to the end of the length. -/
def frontLength : Nat := 12

/-- Reads a wide record. -/
def read : Reader Unit WideRecord := do
  let half := Word.read () 2
  let word := Word.read () 4
  let wide := Word.read () 8
  Mark.wideRecord.read
  let length ← wide
  let madeBy ← half
  let needed ← half
  let part ← word
  let directoryPart ← word
  let entriesHere ← wide
  let entries ← wide
  let directorySize ← wide
  let directoryStart ← wide
  return {
    length, madeBy, needed, part, directoryPart, entriesHere, entries, directorySize,
    directoryStart }

/-- The bytes of a wide record. -/
def write (w : WideRecord) : Bytes :=
  Mark.wideRecord.bytes ++ Word.bytes 8 w.length ++ Word.bytes 2 w.madeBy ++
    Word.bytes 2 w.needed ++ Word.bytes 4 w.part ++ Word.bytes 4 w.directoryPart ++
    Word.bytes 8 w.entriesHere ++ Word.bytes 8 w.entries ++ Word.bytes 8 w.directorySize ++
    Word.bytes 8 w.directoryStart

end WideRecord

/-- What tells where the wide record is. -/
structure Locator where
  /-- The number of the part that holds the directory. -/
  directoryPart : Nat
  /-- Where the wide record starts. -/
  start : Nat
  /-- The number of parts. -/
  parts : Nat
deriving DecidableEq, Repr

namespace Locator

/-- The number of bytes of a locator. -/
def size : Nat := 20

/-- Reads a locator. -/
def read : Reader Unit Locator := do
  Mark.locator.read
  let directoryPart ← Word.read () 4
  let start ← Word.read () 8
  let parts ← Word.read () 4
  return { directoryPart, start, parts }

/-- The bytes of a locator. -/
def write (l : Locator) : Bytes :=
  Mark.locator.bytes ++ Word.bytes 4 l.directoryPart ++ Word.bytes 8 l.start ++
    Word.bytes 4 l.parts

end Locator

/-! ### Where the directory is -/

/-- Where a directory is. -/
structure Site where
  /-- The number of bytes in front of the archive. -/
  shift : Nat
  /-- The place of the first header. -/
  start : Nat
  /-- The number of headers. -/
  entries : Nat
deriving DecidableEq, Repr

/-- The least number of bytes of a header of the directory. -/
def leastHeader : Nat := 46

namespace WideRecord

/-- Whether a wide record at a place is the one in front of a locator at another: it ends where
the locator starts, and there is room for its directory. -/
def precedes (w : WideRecord) (place : Nat) (l : Locator) (locatorPlace : Nat) : Bool :=
  leastLength ≤ w.length && place + frontLength + w.length = locatorPlace &&
    w.directoryPart = l.directoryPart && w.entries * leastHeader + w.directoryStart ≤ place

/-- Whether all parts are in one, and the numbers agree. -/
def isWhole (w : WideRecord) : Bool :=
  w.part = w.directoryPart && w.entriesHere ≤ w.entries && w.needed ≤ w.madeBy

end WideRecord

namespace Locator

/-- The locator in front of an end record at a place. -/
def before? (bs : Bytes) (place : Nat) : Option Locator :=
  if place < size then none
  else (read (bs.drop (place - size))).toOption.map (·.1)

/-- The first wide record, with its place, that a locator at a place can tell of. -/
def record? (bs : Bytes) (l : Locator) (place : Nat) : Option (Nat × WideRecord) :=
  (Mark.wideRecord.places l.start (bs.drop l.start)).findSome? fun (recordPlace, rest) =>
    match WideRecord.read rest with
    | .ok (w, _) => if w.precedes recordPlace l place then some (recordPlace, w) else none
    | .error _ => none

/-- The directory that a locator at a place leads to. -/
def site? (bs : Bytes) (l : Locator) (place : Nat) : Option Site :=
  if place ≤ l.start ∨ 1 < l.parts then none
  else
    match l.record? bs place with
    | none => none
    | some (recordPlace, w) =>
      -- whatever stands in front of the archive moves the wide record as it moves the directory
      let shift := recordPlace - l.start
      if w.isWhole then some ⟨shift, shift + w.directoryStart, w.entries⟩ else none

end Locator

namespace EndRecord

/-- How many bytes stand in front of the archive whose end record is at a place: up to the
first header from where the directory starts, or as many as an empty directory leaves. -/
def shift? (r : EndRecord) (bs : Bytes) (place : Nat) : Option Nat :=
  if r.entries = 0 then some (place - r.directoryStart)
  else
    match Mark.header.places r.directoryStart (bs.drop r.directoryStart) with
    -- the directory starts where its first header is, which may be later than it says
    | [] => none
    | (first, _) :: _ => if first < place then some (first - r.directoryStart) else none

/-- The directory that an end record at a place tells of by itself. -/
def ownSite? (r : EndRecord) (bs : Bytes) (place : Nat) : Option Site :=
  if r.part = r.directoryPart then
    (r.shift? bs place).map fun shift => ⟨shift, shift + r.directoryStart, r.entriesHere⟩
  else none

/-- The directory of an end record at a place. -/
def site? (r : EndRecord) (bs : Bytes) (place : Nat) : Option Site :=
  match if r.isFull then Locator.before? bs place else none with
  | some l => l.site? bs (place - Locator.size)
  | none => r.ownSite? bs place

end EndRecord

/-! ### Writing -/

/-- The records at the end of an archive: the end record, and a wide record with its locator in
front of it if there are more entries than it has room for. -/
def writeEnd (entries directorySize directoryStart needed : Nat) (comment : Bytes) : Bytes :=
  let wide : WideRecord := {
    length := WideRecord.leastLength, madeBy := needed, needed, part := 0, directoryPart := 0,
    entriesHere := entries, entries, directorySize, directoryStart }
  let locator : Locator :=
    { directoryPart := 0, start := directoryStart + directorySize, parts := 1 }
  let shown := min entries (Word.limit 2)
  let record : EndRecord := {
    part := 0, directoryPart := 0, entriesHere := shown, entries := shown, directorySize,
    directoryStart, comment }
  (if Word.limit 2 < entries then wide.write ++ locator.write else []) ++ record.write

end Defuse.Archive.Zip
