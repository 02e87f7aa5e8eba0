import Defuse.CommandLine
import Std.Time

/-!
# The program

* `systemDisk` — the disk of the system.  The permissions of a file cannot be asked for, so a
  new file keeps those that it is made with;
* `currentStamp` — the local time;
* `main` — hands the arguments to `execute` and prints what it leaves.
-/

namespace Defuse

/-- Takes a step of the system. -/
def systemStep {α : Type} (act : IO α) : IO (Except DiskError α) := do
  try
    return .ok (← act)
  catch
    | .alreadyExists .. => return .error .taken
    | e => return .error (.refused (toString e))

/-- The disk of the system. -/
instance systemDisk : Disk IO where
  isFile path := do
    try
      let data ← (← IO.FS.realPath path).metadata
      return data.type == .file
    catch _ => return false
  read path := systemStep do return (← IO.FS.readBinFile path).toList
  create path := systemStep do
    let _ ← IO.FS.Handle.mk path .writeNew
  write path bytes := systemStep do IO.FS.writeBinFile path ⟨bytes.toArray⟩
  sync _ := return .ok ()
  copyMode _ _ := return .ok ()
  remove path := do
    let _ ← systemStep (IO.FS.removeFile path)
  rename source target := systemStep (IO.FS.rename source target)

/-- The local time. -/
def currentStamp : IO Stamp := do
  let now ← Std.Time.PlainDateTime.now
  return {
    year := now.year.toInt
    month := now.month.val.toNat
    day := now.day.val.toNat
    hour := now.time.hour.val.toNat
    minute := now.time.minute.val.toNat
    second := now.time.second.val.toNat }

end Defuse

/-- Runs the program. -/
def main (arguments : List String) : IO UInt32 := do
  let ending : Defuse.Ending ← Defuse.execute (← Defuse.currentStamp) arguments
  IO.print ending.output
  IO.eprint ending.errors
  return ending.exitCode
