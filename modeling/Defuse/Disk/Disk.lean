import Defuse.Bytes

/-!
# Disks

What a run asks of the disk, one step at a time; every step can fail.

* `Disk` — the steps;
* `createFree` — creates the first file of a row of paths whose name is not taken.
-/

namespace Defuse

/-- Why a disk refuses a step. -/
inductive DiskError where
  /-- The name is taken. -/
  | taken
  /-- Anything else, in the words of the system. -/
  | refused (reason : String)
deriving DecidableEq, Repr

/-- The text of an error. -/
def DiskError.message : DiskError → String
  | taken => "File exists"
  | refused reason => reason

/-- The steps that a disk takes. -/
class Disk (m : Type → Type) where
  /-- Whether there is a file at a path. -/
  isFile : String → m Bool
  /-- The bytes of a file. -/
  read : String → m (Except DiskError Bytes)
  /-- Creates an empty file, unless the name is taken. -/
  create : String → m (Except DiskError Unit)
  /-- Writes bytes into an empty file. -/
  write : String → Bytes → m (Except DiskError Unit)
  /-- Waits until the bytes of a file have landed. -/
  sync : String → m (Except DiskError Unit)
  /-- Gives a file the permissions of another one, the first of the two. -/
  copyMode : String → String → m (Except DiskError Unit)
  /-- Removes a file. -/
  remove : String → m Unit
  /-- Gives a file another name, that of an existing file perhaps, which is then gone. -/
  rename : String → String → m (Except DiskError Unit)

variable {m : Type → Type} [Monad m] [Disk m]

/-- What comes of looking for a free name. -/
inductive Creation where
  /-- A file has been created. -/
  | created (path : String)
  /-- The names are all taken. -/
  | noneFree
  /-- A name could not be tried. -/
  | failed (path : String) (cause : DiskError)
deriving DecidableEq, Repr

/-- Tries `attempts` paths of a row from a number on. -/
def createFreeFrom (pathAt : Nat → String) : Nat → Nat → m Creation
  | 0, _ => return .noneFree
  | attempts + 1, n => do
    match ← Disk.create (pathAt n) with
    | .ok () => return .created (pathAt n)
    | .error .taken => createFreeFrom pathAt attempts (n + 1)
    | .error cause => return .failed (pathAt n) cause

/-- Creates the first file of a row of paths whose name is not taken. -/
def createFree (pathAt : Nat → String) (attempts : Nat) : m Creation :=
  createFreeFrom pathAt attempts 0

end Defuse
