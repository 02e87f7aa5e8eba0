import Defuse.Archive.Entry
import Defuse.Archive.Zip.EndRecord
import Defuse.Archive.Zip.ExtraField

/-!
# The archive format

An archive is a row of entries, each behind a header of its own, then a directory with one
header for each entry, then the records of the end.

* `Zip.entryAt?`, `Zip.entries?` — the entries of a directory, if it is in order;
* `Archive.read?` — the end record is looked for from the end; the first one that leads to a
  directory in order counts;
* `Archive.write` — the bytes of an archive;
* `Archive.fits` — whether the format has room for it.
-/

namespace Defuse.Archive

namespace Zip

/-! ### Reading -/

/-- The entry of a header of a directory.  It starts before the directory, and so do its
data. -/
def entryAt? (bs : Bytes) (s : Site) (h : Header) : Option Entry :=
  let place := s.shift + h.start
  -- an entry stands in front of the directory, with its header and its gap
  if s.start ≤ place then none
  else
    match Header.readGap (bs.drop place) with
    | .error _ => none
    | .ok (gap, rest) =>
      if s.start < place + Header.entryLength + gap then none
      else
        some {
          name := h.nameText
          method := .ofCode h.method.toUInt16
          isEncrypted := h.flags.testBit encryptedFlag || h.isSealed
          modified := Stamp.ofDos? h.date h.time
          checksum := h.checksum.toUInt32
          size := h.size
          mode := h.mode
          dataSize := h.dataSize
          data := (rest.drop gap).take h.dataSize }

/-- The entries of a directory, if all its headers are in order. -/
def entries? (bs : Bytes) (s : Site) : Option (List Entry) :=
  match Reader.many Header.read s.entries (bs.drop s.start) with
  | .error _ => none
  | .ok (hs, _) => hs.mapM (entryAt? bs s)

/-- Puts an entry in front of others, or in the place of the one of the same name. -/
def addEntry (es : List Entry) (e : Entry) : List Entry :=
  if es.any (·.name = e.name) then es.map fun other => if other.name = e.name then e else other
  else e :: es

/-- Entries in order, with the last one of each name at the place of the first. -/
def distinct (es : List Entry) : List Entry := (es.foldl addEntry []).reverse

/-- The archive whose end record is at a place, if its directory is in order. -/
def archive? (bs : Bytes) (place : Nat) (rest : Bytes) : Option Archive := do
  let (r, _) ← (EndRecord.read rest).toOption
  let s ← r.site? bs place
  let es ← entries? bs s
  return ⟨r.comment, distinct es⟩

end Zip

/-- Reads an archive. -/
def read? (bs : Bytes) : Option Archive :=
  -- the last end record counts, since an earlier one may be part of an entry
  (Zip.Mark.endRecord.places 0 bs).reverse.findSome? fun (place, rest) =>
    Zip.archive? bs place rest

/-! ### Writing -/

namespace Entry

/-- The number of the flag of an entry whose name needs UTF-8. -/
def flags (e : Entry) : Nat :=
  if e.name.toList.all fun c => c.toNat < 128 then 0 else 2 ^ Zip.utf8Flag

/-- The header of an entry that starts at a place. -/
def header (e : Entry) (start : Nat) : Zip.Header :=
  let (date, time) := (e.modified.getD .dosEpoch).toDos
  { system := Zip.unixSystem, flags := e.flags, method := e.method.code.toNat, time, date,
    checksum := e.checksum.toNat, dataSize := e.dataSize, size := e.size,
    fileAttributes := e.mode.getD 0 * 65536, start, name := Text.Utf8.encode e.name }

/-- The bytes of an entry. -/
def write (e : Entry) : Bytes := (e.header 0).writeEntry e.data

/-- The number of bytes of an entry. -/
def length (e : Entry) : Nat :=
  let h := e.header 0
  Zip.Header.entryLength + h.name.length + h.wideField.length + e.data.length

@[simp] theorem length_write (e : Entry) : e.write.length = e.length := by simp [write, length]

end Entry

/-- The entries with the places where they start. -/
def placed (es : List Entry) : List (Nat × Entry) :=
  (es.foldl (fun (place, acc) e => (place + e.length, (place, e) :: acc)) (0, [])).2.reverse

/-- The headers of the directory. -/
def headers (es : List Entry) : List Zip.Header := (placed es).map fun (place, e) => e.header place

/-- The version of the format that a reader of the whole archive needs. -/
def neededVersion (hs : List Zip.Header) : Nat :=
  hs.foldl (fun version h => max version h.neededVersion) (Zip.methodVersion 0)

/-- The bytes of an archive. -/
def write (a : Archive) : Bytes :=
  let hs := headers a.entries
  let directory := hs.flatMap (·.write)
  a.entries.flatMap Entry.write ++ directory ++
    Zip.writeEnd hs.length directory.length (a.entries.map Entry.length).sum (neededVersion hs)
      a.comment

/-- Whether the format has room for an archive: for its comment, for the name of every entry,
and for the place of every part. -/
def fits (a : Archive) : Bool :=
  a.comment.length ≤ Word.limit 2 && a.write.length ≤ Word.limit 4 &&
    a.entries.all fun e => (Text.Utf8.encode e.name).length ≤ Word.limit 2

end Defuse.Archive
