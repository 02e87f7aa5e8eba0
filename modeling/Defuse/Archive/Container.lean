import Defuse.Archive.Zip
import Defuse.Class.Patch
import Defuse.Release
import Defuse.Target

/-!
# Opened archives

* `Container`, `Container.ofBytes`, `Container.lookup` — an archive that has been read;
* `Container.release` — which release of the library it holds;
* `Outcome`, `patchTarget` — the new bytes of a target, or why there are none.
-/

namespace Defuse

/-- An archive that has been read. -/
structure Container where
  /-- The path it was read from. -/
  path : String
  /-- The bytes it was read from. -/
  bytes : Bytes
  /-- What it holds. -/
  archive : Archive

/-- Why an archive, or one of its entries, cannot be had. -/
inductive ContainerError where
  /-- There is no such file. -/
  | archiveNotFound (path : String)
  /-- The bytes cannot be read; `cause` is what the system says. -/
  | archiveUnloadable (path cause : String)
  /-- The bytes are no archive. -/
  | archiveUnreadable (path : String)
  /-- There is no such entry. -/
  | entryNotFound (name : String)
  /-- The content of an entry cannot be had. -/
  | entryUnreadable (name : String)
deriving DecidableEq, Repr

/-- The text of an error. -/
def ContainerError.message : ContainerError → String
  | archiveNotFound path => "archive " ++ path ++ " not found"
  | archiveUnloadable path cause => "archive " ++ path ++ " is unreadable: " ++ cause
  | archiveUnreadable path => "archive " ++ path ++ " is unreadable: no directory is in order"
  | entryNotFound name => "entry " ++ name ++ " not found in archive"
  | entryUnreadable name => "entry " ++ name ++ " is unreadable: its data are not in order"

namespace Container

/-- Reads an archive. -/
def ofBytes (path : String) (bytes : Bytes) : Except ContainerError Container :=
  match Archive.read? bytes with
  | some a => .ok ⟨path, bytes, a⟩
  | none => .error (.archiveUnreadable path)

/-- The names of the entries. -/
def names (c : Container) : List String := c.archive.names

/-- The content of an entry. -/
def lookup (c : Container) (name : String) : Except ContainerError Bytes :=
  match c.archive.find? name with
  | none => .error (.entryNotFound name)
  | some e =>
    match e.content? with
    | some content => .ok content
    | none => .error (.entryUnreadable name)

/-- The release that the entries up to some point show, behind one more entry: a factory class
decides, unless it cannot be read. -/
def releaseWith (r : Release) (e : Archive.Entry) : Release :=
  if Release.factoryEntry.toList.isSuffixOf e.name.toList then
    (e.content?.map Release.ofFactory).getD r
  else r

/-- The release that the last readable factory class shows. -/
def release (c : Container) : Release := c.archive.entries.foldl releaseWith .notFound

end Container

/-! ### Targets -/

/-- Why an entry that is there cannot be patched. -/
inductive UnreadableEntry where
  | content (name : String)
  | class (cause : Malformation)
deriving DecidableEq, Repr

/-- The text of a cause. -/
def UnreadableEntry.message : UnreadableEntry → String
  | content name => (ContainerError.entryUnreadable name).message
  | .class cause => cause.message

/-- What becomes of a target. -/
inductive Outcome where
  /-- The entry has new bytes. -/
  | applied (bytes : Bytes)
  | entryNotFound
  | methodNotFound
  | compileFailed (cause : CompileError)
  | entryUnreadable (cause : UnreadableEntry)
deriving DecidableEq, Repr

namespace Outcome

/-- The new bytes. -/
def bytes? : Outcome → Option Bytes
  | applied bytes => some bytes
  | _ => none

/-- Whether there are new bytes. -/
def isApplied (o : Outcome) : Bool := o.bytes?.isSome

/-- The text of an outcome. -/
def describe : Outcome → String
  | applied _ => "Applied"
  | entryNotFound => "not found in archive"
  | methodNotFound => "method not found"
  | compileFailed cause => "compile failed: " ++ cause.message
  | entryUnreadable cause => "unreadable: " ++ cause.message

/-- The outcome of replacing a body. -/
def ofPatch : Except PatchError Bytes → Outcome
  | .ok bytes => applied bytes
  | .error (.methodNotFound ..) => methodNotFound
  | .error (.compileFailed cause) => compileFailed cause
  | .error (.malformed cause) => entryUnreadable (.class cause)

end Outcome

/-- Patches one target. -/
def patchTarget (compiler : Compiler) (c : Container) (t : Target) : Outcome :=
  match c.archive.find? t.entryPath with
  | none => .entryNotFound
  | some e =>
    match e.content? with
    | none => .entryUnreadable (.content t.entryPath)
    | some bytes => .ofPatch (patch compiler bytes t.methodName t.descriptor t.source)

end Defuse
