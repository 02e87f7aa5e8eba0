import Defuse.Archive.Crc32
import Defuse.Archive.DosTime
import Defuse.Archive.Inflate

/-!
# Archives

* `Method`, `Entry`, `Archive` — an archive as what it holds, in order;
* `Entry.content?` — the bytes that an entry stands for, if they can be had;
* `Entry.withContent` — an entry that stands for other bytes;
* `Entry.copied` — an entry as it is written when its data are copied as they are.
-/

namespace Defuse

namespace Archive

/-- How the data of an entry stand for its content. -/
inductive Method where
  /-- As they are. -/
  | stored
  /-- As a compressed stream. -/
  | deflated
  /-- In some other way. -/
  | other (code : UInt16)
deriving DecidableEq, Repr

namespace Method

/-- The number of a method. -/
def code : Method → UInt16
  | stored => 0
  | deflated => 8
  | other code => code

/-- The method of a number. -/
def ofCode (code : UInt16) : Method :=
  if code = 0 then stored else if code = 8 then deflated else other code

end Method

/-- An entry. -/
structure Entry where
  /-- The name. -/
  name : String
  /-- How the data stand for the content. -/
  method : Method
  /-- Whether the data are encrypted. -/
  isEncrypted : Bool
  /-- When the content was last changed, if that is known. -/
  modified : Option Stamp
  /-- The check sum of the content. -/
  checksum : UInt32
  /-- The number of bytes of the content, as it is stated. -/
  size : Nat
  /-- The permissions and the kind of file, if they are known. -/
  mode : Option Nat
  /-- The number of bytes of the data, as it is stated. -/
  dataSize : Nat
  /-- The data, or as many of them as there are. -/
  data : Bytes
deriving DecidableEq, Repr

namespace Entry

/-- What the data stand for, whatever the check sum says. -/
def decoded? (e : Entry) : Option Bytes :=
  if e.isEncrypted then none
  else
    match e.method with
    | .stored => some e.data
    | .deflated => (inflate e.data).toOption
    | .other _ => none

/-- The content: what the data stand for, if the check sum is right. -/
def content? (e : Entry) : Option Bytes :=
  e.decoded?.filter fun out => Crc32.checksum out = e.checksum

/-- The mark of an ordinary file. -/
def ordinaryFile : Nat := 0o100000

/-- The mode of a written entry: an ordinary file with the permissions that are known. -/
def writtenMode (mode : Option Nat) : Nat :=
  ordinaryFile + (match mode with | some mode => mode % 512 | none => 0o644)

/-- An entry as it is written: not encrypted, an ordinary file, with a time. -/
def copied (e : Entry) : Entry :=
  { e with
    isEncrypted := false
    modified := some (e.modified.getD .dosEpoch)
    mode := some (writtenMode e.mode) }

/-- An entry as it is written with other content: stored if it was, else compressed. -/
def withContent (e : Entry) (content : Bytes) : Entry :=
  let data := if e.method = .stored then content else deflate content
  { e.copied with
    method := if e.method = .stored then .stored else .deflated
    checksum := Crc32.checksum content
    size := content.length
    dataSize := data.length
    data }

end Entry

end Archive

/-- An archive. -/
structure Archive where
  /-- The comment at its end. -/
  comment : Bytes
  /-- The entries, in the order of the directory. -/
  entries : List Archive.Entry
deriving DecidableEq, Repr

namespace Archive

/-- The names of the entries. -/
def names (a : Archive) : List String := a.entries.map (·.name)

/-- The entry of a name. -/
def find? (a : Archive) (name : String) : Option Entry := a.entries.find? (·.name = name)

end Archive

end Defuse
