import Defuse.Arguments
import Defuse.Run

/-!
# The command line

* `Ending` — what a program leaves: an exit code and two texts;
* `usage`, `ArgumentsError.message`;
* `execute` — reads the arguments, runs, and tells how it went.
-/

namespace Defuse

/-- What a program leaves. -/
structure Ending where
  /-- The exit code. -/
  exitCode : UInt32
  /-- What it prints. -/
  output : String
  /-- What it reports. -/
  errors : String
deriving DecidableEq, Repr

/-- How to call the program. -/
def usage : String :=
  "Usage:
  lookup-patch TARGET_JAR [PATCHING_MODE]
  Where TARGET_JAR is the application to patch and PATCHING_MODE is
    0 (default): Patch Script lookup
    1:           Patch Script + DNS + URL lookups
  [Note: The original Jar will be kept in the same folder with the .orig.jar extension]
"

/-- The options, for an operator who asks for help. -/
def help : String :=
  "Disable the Commons Text script, DNS and URL string lookups inside a JAR

Options:
      --parallel           Patch targets concurrently
      --staging-dir <DIR>  Directory for the temporary rebuilt archive
  -v, --verbose            Verbose logging
  -h, --help               Print help
  -V, --version            Print version

" ++ usage

/-- The name and the version of the program. -/
def versionLine : String := "lookup-patch 0.1.0\n"

/-- The text of an error. -/
def ArgumentsError.message : ArgumentsError → String
  | missingArchive => "no archive is given"
  | invalidValue => "a value is missing or empty"
  | unknownArgument => "an argument is not known"
  | repeatedOption => "an option is given twice"
  | unexpectedValue => "an option is given a value that it does not take"
  | helpWanted => "help is asked for"
  | versionWanted => "the version is asked for"

/-- The ending of a program that does not run. -/
def ArgumentsError.ending : ArgumentsError → Ending
  | helpWanted => ⟨0, help, ""⟩
  | versionWanted => ⟨0, versionLine, ""⟩
  | e => ⟨1, usage, "error: " ++ e.message ++ "\n"⟩

/-- The ending of a program that is asked for no mode. -/
def ModeError.ending (e : ModeError) : Ending :=
  match e with
  | notInteger _ => ⟨1, e.message ++ "\n", ""⟩
  | outOfRange => ⟨1, e.message ++ "\n" ++ usage, ""⟩

/-- The ending of a run. -/
def endingOf (archive : String) : Except RunError Report → Ending
  | .ok report => ⟨0, report.text, ""⟩
  | .error e => ⟨1, "", "error: patching " ++ archive ++ " failed: " ++ e.message ++ "\n"⟩

variable {m : Type → Type} [Monad m] [Disk m]

/-- Does what the arguments ask for. -/
def execute (stamp : Stamp) (arguments : List String) : m Ending := do
  match Arguments.read arguments with
  | .error e => return e.ending
  | .ok a =>
    match Mode.ofArgument a.mode with
    | .error e => return e.ending
    | .ok mode =>
      let config : Configuration :=
        { archive := a.archive, mode, parallel := a.parallel,
          stagingDirectory := a.stagingDirectory, stamp }
      return endingOf a.archive (← run compile config)

end Defuse
