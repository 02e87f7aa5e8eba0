import Defuse.Archive.Container
import Defuse.Archive.Rebuild
import Defuse.Backup

/-!
# Runs

A run patches every target of a mode, makes a backup of the archive, and replaces the archive
by a new one, which is complete before it takes the old one's place.

* `Configuration`, `Report`, `RunError`;
* `Container.load` — reads an archive from a disk;
* `replaceArchive` — writes the new archive beside the old one and renames it;
* `rebuild` — a backup, then the new archive;
* `outcomes`, `Configuration.outcomes` — what becomes of the targets, one after another or all at
  the same time;
* `run` — all of it.  A target that cannot be patched does not stop a run.
-/

namespace Defuse

/-- What a run needs to know. -/
structure Configuration where
  /-- The archive. -/
  archive : String
  /-- What is patched. -/
  mode : Mode
  /-- Whether targets are patched at the same time. -/
  parallel : Bool := false
  /-- Where the new archive is written; without one, beside the old one. -/
  stagingDirectory : Option String
  /-- What the backup is called after. -/
  stamp : Stamp

/-- Why a new archive does not take the place of the old one. -/
inductive ReplaceFailure where
  /-- All names for the new archive are taken. -/
  | noFreeName
  /-- The format has no room for it. -/
  | tooLarge
  /-- The disk refuses a step. -/
  | disk (cause : DiskError)
deriving DecidableEq, Repr

/-- The text of a cause. -/
def ReplaceFailure.message : ReplaceFailure → String
  | noFreeName => "no free name for the new archive"
  | tooLarge => "the new archive is too large"
  | disk cause => cause.message

/-- Why a run ends early. -/
inductive RunError where
  | container (cause : ContainerError)
  | backup (cause : BackupError)
  | replace (archive : String) (cause : ReplaceFailure)
deriving DecidableEq, Repr

/-- The text of an error. -/
def RunError.message : RunError → String
  | container cause => cause.message
  | backup cause => cause.message
  | replace archive cause => "cannot rewrite " ++ archive ++ ": " ++ cause.message

/-- What replacing an archive comes to. -/
structure RebuildSummary where
  /-- The backup. -/
  backup : BackupRecord
  /-- How many entries the new archive has. -/
  stats : RebuildStats
deriving DecidableEq, Repr

/-- What a run comes to. -/
structure Report where
  /-- The archive. -/
  archive : String
  /-- The release of the library in it. -/
  release : Release
  /-- The targets with their outcomes, in the order of the mode. -/
  targets : List (Target × Outcome)
  /-- The backup and the new archive. -/
  rebuild : RebuildSummary

namespace Report

/-- How many targets have been patched. -/
def applied (r : Report) : Nat := r.targets.countP fun t => t.2.isApplied

/-- How many have not. -/
def skipped (r : Report) : Nat := r.targets.length - r.applied

/-- The line of a target. -/
def targetLine (t : Target × Outcome) : String :=
  "  " ++ t.1.className ++ "." ++ t.1.methodName ++ ": " ++ t.2.describe ++ "\n"

/-- The text of a report. -/
def text (r : Report) : String :=
  "Commons Text in " ++ r.archive ++ ": " ++ r.release.shown ++ "\n" ++
    String.join (r.targets.map targetLine) ++
    s!"{r.applied} of {r.targets.length} targets patched, {r.skipped} skipped; backup at " ++
    r.rebuild.backup.path ++ "\nJar " ++ r.archive ++ " replaced - patch done.\n"

end Report

variable {m : Type → Type} [Monad m] [Disk m]

/-! ### The old archive -/

/-- Reads an archive from a disk. -/
def Container.load (path : String) : m (Except ContainerError Container) := do
  if ← Disk.isFile path then
    match ← Disk.read path with
    | .error cause => return .error (.archiveUnloadable path cause.message)
    | .ok bytes => return Container.ofBytes path bytes
  else return .error (.archiveNotFound path)

/-! ### The new archive -/

/-- The directory where the new archive is written. -/
def stagingOf (archive : String) : Option String → String
  | some directory => directory
  | none =>
    match Path.split archive with
    | some (directory, _) => if directory = "" then "." else directory
    | none => "."

/-- The path of an archive that is being written. -/
def temporaryPath (directory : String) (n : Nat) : String :=
  Path.join directory (".lookup-patch-" ++ toString n ++ ".tmp")

/-- How many names for it are tried. -/
def temporaryAttempts : Nat := 65536

/-- Fills an empty file with the new archive and gives it the old one's name. -/
def fillAndRename (archive temporary : String) (bytes : Option Bytes) :
    m (Except ReplaceFailure Unit) := ExceptT.run do
  let disk {α : Type} (act : m (Except DiskError α)) : ExceptT ReplaceFailure m α :=
    ExceptT.adapt .disk (ExceptT.mk act)
  match bytes with
  | none => throw .tooLarge
  | some bytes =>
    disk (Disk.write temporary bytes)
    disk (Disk.sync temporary)
    disk (Disk.copyMode archive temporary)
    disk (Disk.rename temporary archive)

/-- Writes the new archive and gives it the old one's name. -/
def replaceArchive (archive : String) (staging : Option String) (bytes : Option Bytes) :
    m (Except ReplaceFailure Unit) := do
  match ← createFree (temporaryPath (stagingOf archive staging)) temporaryAttempts with
  | .noneFree => return .error .noFreeName
  | .failed _ cause => return .error (.disk cause)
  | .created temporary =>
    match ← fillAndRename archive temporary bytes with
    | .ok () => return .ok ()
    | .error cause =>
      Disk.remove temporary
      return .error cause

/-- Makes a backup of an archive, then replaces it by the entries of a container with new
content in place of old. -/
def rebuild (archive : String) (staging : Option String) (stamp : Stamp) (c : Container)
    (subs : Substitutions) : m (Except RunError RebuildSummary) := do
  match ← Backup.make archive c.bytes stamp with
  | .error e => return .error (.backup e)
  | .ok backup =>
    match ← replaceArchive archive staging (c.archive.rebuilt? subs) with
    | .error e => return .error (.replace archive e)
    | .ok () => return .ok ⟨backup, c.archive.stats subs⟩

/-! ### Runs -/

/-- The targets of a mode with what becomes of them. -/
def outcomes (compiler : Compiler) (c : Container) (mode : Mode) : List (Target × Outcome) :=
  mode.targets.map fun t => (t, patchTarget compiler c t)

/-- The same, with all targets at the same time. -/
def outcomesAtOnce (compiler : Compiler) (c : Container) (mode : Mode) :
    List (Target × Outcome) :=
  let tasks := mode.targets.map fun t => Task.spawn fun _ => (t, patchTarget compiler c t)
  tasks.map Task.get

/-- The targets of a run with what becomes of them. -/
def Configuration.outcomes (config : Configuration) (compiler : Compiler) (c : Container) :
    List (Target × Outcome) :=
  if config.parallel then outcomesAtOnce compiler c config.mode
  else Defuse.outcomes compiler c config.mode

/-- No target needs what becomes of another one, so the order in which they are patched is of no
consequence. -/
theorem Configuration.outcomes_eq (config : Configuration) (compiler : Compiler) (c : Container) :
    config.outcomes compiler c = Defuse.outcomes compiler c config.mode := by
  unfold Configuration.outcomes
  split
  · show (config.mode.targets.map _).map Task.get = _
    rw [List.map_map]
    rfl
  · rfl

/-- The new content of the patched entries. -/
def substitutionsOf (targets : List (Target × Outcome)) : Substitutions :=
  targets.filterMap fun (t, o) => o.bytes?.map (t.entryPath, ·)

/-- Patches the targets of a mode in an archive. -/
def run (compiler : Compiler) (config : Configuration) : m (Except RunError Report) := do
  match ← Container.load config.archive with
  | .error e => return .error (.container e)
  | .ok c =>
    let targets := config.outcomes compiler c
    let rebuilt ← rebuild config.archive config.stagingDirectory config.stamp c
      (substitutionsOf targets)
    match rebuilt with
    | .error e => return .error e
    | .ok summary => return .ok ⟨config.archive, c.release, targets, summary⟩

end Defuse
