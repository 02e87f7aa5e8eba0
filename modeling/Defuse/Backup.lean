import Defuse.Disk.Disk
import Defuse.Path
import Defuse.Stamp

/-!
# Backups

A backup lies beside its archive.  Its name is the stem of the archive's name, an underscore,
a stamp, a number if the names with lower numbers are taken, and `.orig` in front of the
suffix.

* `Backup.path` — the path of a backup;
* `BackupError` — why there is no backup;
* `Backup.make` — copies an archive to the first free name and reads the copy back.  What
  fails leaves nothing behind.
-/

namespace Defuse

namespace Backup

/-! ### Names -/

/-- The name of a backup, from the two parts of the archive's name. -/
def nameOf (stem : String) (suffix? : Option String) (stamp : Stamp) (collision : Nat) :
    String :=
  stem ++ "_" ++ stamp.text ++
    (if collision = 0 then "" else "_" ++ toString collision) ++ ".orig" ++
    (match suffix? with
    | some suffix => "." ++ suffix
    | none => "")

/-- The path of a backup.  A path that does not end in a name is taken for a directory. -/
def path (archive : String) (stamp : Stamp) (collision : Nat) : String :=
  match Path.split archive with
  | some (directory, name) =>
    Path.join directory (nameOf (Path.stem name) (Path.suffix? name) stamp collision)
  | none => Path.join archive (nameOf "" none stamp collision)

/-- The number of names that are tried. -/
def attempts : Nat := 1000

end Backup

/-- A backup that has been made. -/
structure BackupRecord where
  /-- Where it is. -/
  path : String
  /-- The number of its bytes. -/
  length : Nat
deriving DecidableEq, Repr

/-- Why a copy is no backup. -/
inductive BackupFailure where
  /-- All names are taken. -/
  | noFreeName
  /-- The copy holds other bytes than those that were read before. -/
  | mismatch (found expected : Nat)
  /-- The disk refuses a step. -/
  | disk (cause : DiskError)
deriving DecidableEq, Repr

/-- The text of a cause. -/
def BackupFailure.message : BackupFailure → String
  | noFreeName => "no free backup name"
  | mismatch found expected =>
    s!"backup does not match the loaded archive ({found} bytes on disk, {expected} expected)"
  | disk cause => cause.message

/-- Why there is no backup. -/
structure BackupError where
  /-- The archive. -/
  archive : String
  /-- The path of the backup that could not be made. -/
  backup : String
  /-- The cause. -/
  failure : BackupFailure
deriving DecidableEq, Repr

/-- The text of an error. -/
def BackupError.message (e : BackupError) : String :=
  "cannot back up " ++ e.archive ++ " to " ++ e.backup ++ ": " ++ e.failure.message

namespace Backup

variable {m : Type → Type} [Monad m] [Disk m]

/-- Copies the bytes and the permissions of a file to an empty one and reads the copy back. -/
def copyVerified (archive path : String) (expected : Bytes) :
    m (Except BackupFailure Unit) := ExceptT.run do
  let disk {α : Type} (act : m (Except DiskError α)) : ExceptT BackupFailure m α :=
    ExceptT.adapt .disk (ExceptT.mk act)
  let bytes ← disk (Disk.read archive)
  disk (Disk.write path bytes)
  disk (Disk.sync path)
  disk (Disk.copyMode archive path)
  let found ← disk (Disk.read path)
  if found = expected then return () else throw (.mismatch found.length expected.length)

/-- Makes a backup of an archive whose bytes have been read before. -/
def make (archive : String) (expected : Bytes) (stamp : Stamp) :
    m (Except BackupError BackupRecord) := do
  match ← createFree (path archive stamp) attempts with
  | .noneFree => return .error ⟨archive, path archive stamp (attempts - 1), .noFreeName⟩
  | .failed backup cause => return .error ⟨archive, backup, .disk cause⟩
  | .created backup =>
    match ← copyVerified archive backup expected with
    | .ok () => return .ok ⟨backup, expected.length⟩
    | .error failure =>
      Disk.remove backup
      return .error ⟨archive, backup, failure⟩

end Backup

end Defuse
