import Defuse.Disk.Disk

/-!
# A disk in memory

A file system as a table of files and directories, on which every step can be made to fail.

* `Place`, `Node`, `FileSystem` — the table;
* `FileSystem.resolve` — the place that a path leads to;
* `Fault`, `World` — a file system, the number of steps taken, and which steps fail;
* the instance of `Disk` for computations on a world.  Removing a file never fails.
-/

namespace Defuse

/-- A place: the name there, then the names of the directories around it, innermost first. -/
abbrev Place := List String

/-- What can be at a place. -/
inductive Node where
  | file (bytes : Bytes) (mode : Nat)
  | directory (mode : Nat)
deriving DecidableEq, Repr

/-- A file system.  The outermost directory is always there. -/
structure FileSystem where
  /-- Where paths start that do not start with a slash. -/
  working : Place
  /-- What is at which place. -/
  nodes : List (Place × Node)
deriving DecidableEq, Repr

namespace FileSystem

/-- The permissions of a new file. -/
def fileMode : Nat := 0o644

/-- The permissions of a new directory. -/
def directoryMode : Nat := 0o755

/-- A file system with nothing in it. -/
def empty : FileSystem := ⟨[], []⟩

/-- What is at a place. -/
def at? (fs : FileSystem) (p : Place) : Option Node :=
  match p with
  | [] => some (.directory directoryMode)
  | p => fs.nodes.lookup p

/-- Puts something at a place. -/
def put (fs : FileSystem) (p : Place) (n : Node) : FileSystem :=
  { fs with nodes := (p, n) :: fs.nodes.filter (·.1 ≠ p) }

/-- Clears a place. -/
def clear (fs : FileSystem) (p : Place) : FileSystem :=
  { fs with nodes := fs.nodes.filter (·.1 ≠ p) }

/-- Whether a place is a directory. -/
def isDirectory (fs : FileSystem) (p : Place) : Bool :=
  match fs.at? p with
  | some (.directory _) => true
  | _ => false

/-! ### Paths -/

/-- The names of a path between its slashes. -/
def namesOf (path : String) : List String :=
  (path.toList.foldr (fun c parts =>
    match c, parts with
    | '/', parts => [] :: parts
    | c, part :: parts => (c :: part) :: parts
    | c, [] => [[c]]) [[]]).map String.ofList

/-- Goes from one place to the next one of a path.  Only a directory leads on. -/
def follow (fs : FileSystem) (p : Place) (name : String) : Option Place :=
  if fs.isDirectory p then
    if name = "" ∨ name = "." then some p
    else if name = ".." then some p.tail
    else some (name :: p)
  else none

/-- The place that a path leads to, whatever is there. -/
def resolve (fs : FileSystem) (path : String) : Option Place :=
  if path = "" then none
  else
    let start := if path.toList.head? = some '/' then [] else fs.working
    (namesOf path).foldlM fs.follow start

/-- What a path leads to. -/
def find? (fs : FileSystem) (path : String) : Option (Place × Node) :=
  match fs.resolve path with
  | none => none
  | some p => (fs.at? p).map (p, ·)

/-- The place where a path makes something new: one that is free, inside a directory. -/
def free? (fs : FileSystem) (path : String) : Except DiskError Place :=
  match fs.resolve path with
  | none => .error (.refused "No such file or directory")
  | some p => if (fs.at? p).isSome then .error .taken else .ok p

end FileSystem

/-! ### Worlds -/

/-- The failure of a step.  A failing write leaves the first bytes behind. -/
structure Fault where
  /-- How many bytes. -/
  landed : Nat

/-- A file system over time. -/
structure World where
  /-- The file system. -/
  files : FileSystem
  /-- The number of steps taken. -/
  steps : Nat
  /-- Which steps fail. -/
  faults : Nat → Option Fault

namespace World

/-- A world in which no step fails. -/
def reliable (files : FileSystem) : World := ⟨files, 0, fun _ => none⟩

/-- Takes a step that can fail. -/
def step : StateM World (Option Fault) := fun w =>
  (w.faults w.steps, { w with steps := w.steps + 1 })

/-- Takes a step on the file system, unless it fails. -/
def attempt (act : FileSystem → Except DiskError FileSystem) :
    StateM World (Except DiskError Unit) := do
  match ← step with
  | some _ => return .error (.refused "Input/output error")
  | none => fun w =>
    match act w.files with
    | .ok files => (.ok (), { w with files })
    | .error e => (.error e, w)

/-- What a path leads to, in the words of the system where there is nothing. -/
def fileAt (files : FileSystem) (path : String) : Except DiskError (Place × Bytes × Nat) :=
  match files.find? path with
  | none => .error (.refused "No such file or directory")
  | some (_, .directory _) => .error (.refused "Is a directory")
  | some (p, .file bytes mode) => .ok (p, bytes, mode)

instance : Disk (StateM World) where
  isFile path := do
    let fault ← step
    let w ← get
    return fault.isNone && (fileAt w.files path).isOk
  read path := do
    let fault ← step
    let w ← get
    return match fault with
      | some _ => .error (.refused "Input/output error")
      | none => (fileAt w.files path).map fun (_, bytes, _) => bytes
  create path := attempt fun files => do
    return files.put (← files.free? path) (.file [] FileSystem.fileMode)
  write path bytes := do
    let fault ← step
    -- a write that fails may leave some of the bytes
    let landed := match fault with
      | some f => bytes.take f.landed
      | none => bytes
    fun w =>
      match fileAt w.files path with
      | .error e => (.error e, w)
      | .ok (p, _, mode) =>
        (if fault.isSome then .error (.refused "Input/output error") else .ok (),
          { w with files := w.files.put p (.file landed mode) })
  sync path := attempt fun files => do
    let _ ← fileAt files path
    return files
  copyMode source target := attempt fun files => do
    let (_, _, mode) ← fileAt files source
    let (p, bytes, _) ← fileAt files target
    return files.put p (.file bytes mode)
  remove path := fun w =>
    match fileAt w.files path with
    | .error _ => ((), w)
    | .ok (p, _) => ((), { w with files := w.files.clear p })
  rename source target := attempt fun files => do
    let (p, bytes, mode) ← fileAt files source
    match files.resolve target with
    | none => throw (.refused "No such file or directory")
    | some q =>
      if files.isDirectory q then throw (.refused "Is a directory")
      else return (files.clear p).put q (.file bytes mode)

end World

end Defuse
