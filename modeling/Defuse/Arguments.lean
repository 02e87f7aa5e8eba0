/-!
# Arguments

    ARCHIVE [MODE] [--parallel] [--staging-dir DIR] [-v | --verbose]

Options may stand anywhere before `--`, behind which every argument is a value.  The value of
`--staging-dir` stands behind an equals sign or is the next argument.  An argument that starts
with a dash is an option, save where the mode comes next and the argument looks like a
negative number.

* `Arguments`, `ArgumentsError`;
* `Reading`, `Reading.step` — reads one argument.  A value is looked at only when the next
  argument turns out to be in order, which decides between two errors;
* `Arguments.read` — reads all arguments.
-/

namespace Defuse

/-- What the arguments ask for. -/
structure Arguments where
  /-- The archive. -/
  archive : String
  /-- The mode, as it is typed. -/
  mode : Option String
  /-- Whether targets may be patched at the same time. -/
  parallel : Bool
  /-- Where the new archive is written before it takes its place. -/
  stagingDirectory : Option String
  /-- Whether more is logged. -/
  verbose : Bool
deriving DecidableEq, Repr

/-- Why there is nothing to run. -/
inductive ArgumentsError where
  /-- No archive is given. -/
  | missingArchive
  /-- A path is empty, or a value is missing. -/
  | invalidValue
  /-- An option does not exist, or there is an argument too many. -/
  | unknownArgument
  /-- An option is given twice. -/
  | repeatedOption
  /-- An option that takes no value is given one. -/
  | unexpectedValue
  /-- The operator asks for help. -/
  | helpWanted
  /-- The operator asks for the version. -/
  | versionWanted
deriving DecidableEq, Repr

/-- A value that has been read but not yet looked at. -/
inductive PendingValue where
  | archive (value : String)
  | mode (value : String)
  | stagingDirectory (value : Option String)
deriving DecidableEq, Repr

/-- The options that take no value. -/
inductive Flag where
  | parallel
  | verbose
  | help
  | version
deriving DecidableEq, Repr

/-- What the arguments so far have told. -/
structure Reading where
  archive : Option String
  mode : Option String
  parallel : Bool
  stagingDirectory : Option String
  verbose : Bool
  /-- The last value, not yet looked at. -/
  pending : Option PendingValue
  /-- The number of values that belong to no option. -/
  positionals : Nat
  /-- Whether `--` has been read. -/
  valuesOnly : Bool
deriving DecidableEq, Repr

namespace Reading

/-- Before the first argument. -/
def start : Reading :=
  { archive := none, mode := none, parallel := false, stagingDirectory := none, verbose := false,
    pending := none, positionals := 0, valuesOnly := false }

/-! ### Values and flags -/

/-- Looks at the last value.  Paths may not be empty. -/
def settle (r : Reading) : Except ArgumentsError Reading :=
  match r.pending with
  | none => .ok r
  | some (.archive value) =>
    if value = "" then .error .invalidValue
    else .ok { r with archive := some value, pending := none }
  | some (.mode value) => .ok { r with mode := some value, pending := none }
  | some (.stagingDirectory none) => .error .invalidValue
  | some (.stagingDirectory (some value)) =>
    if r.stagingDirectory.isSome then .error .repeatedOption
    else if value = "" then .error .invalidValue
    else .ok { r with stagingDirectory := some value, pending := none }

/-- Reads a value that belongs to no option. -/
def positional (r : Reading) (value : String) : Except ArgumentsError Reading :=
  match r.positionals with
  | 0 => do return { ← r.settle with pending := some (.archive value), positionals := 1 }
  | 1 => do return { ← r.settle with pending := some (.mode value), positionals := 2 }
  | _ => .error .unknownArgument

/-- Reads a value: that of an option which waits for one, or else a value of its own. -/
def value (r : Reading) (value : String) : Except ArgumentsError Reading :=
  match r.pending, r.valuesOnly with
  | some (.stagingDirectory none), false =>
    .ok { r with pending := some (.stagingDirectory (some value)) }
  | _, _ => r.positional value

/-- Reads an option that takes no value. -/
def flag (r : Reading) (f : Flag) : Except ArgumentsError Reading := do
  let r ← r.settle
  match f with
  | .parallel =>
    if r.parallel then .error .repeatedOption else return { r with parallel := true }
  | .verbose => if r.verbose then .error .repeatedOption else return { r with verbose := true }
  | .help => .error .helpWanted
  | .version => .error .versionWanted

/-! ### Options -/

/-- The option of a letter. -/
def ofLetter? : Char → Option Flag
  | 'v' => some .verbose
  | 'h' => some .help
  | 'V' => some .version
  | _ => none

/-- The option of a word. -/
def ofWord? : String → Option Flag
  | "parallel" => some .parallel
  | "verbose" => some .verbose
  | "help" => some .help
  | "version" => some .version
  | _ => none

/-- Reads options of one letter. -/
def letters (r : Reading) : List Char → Except ArgumentsError Reading
  | [] => .ok r
  | c :: cs =>
    match ofLetter? c with
    | none => .error .unknownArgument
    | some f => do (← r.flag f).letters cs

/-- Reads an option of one word, with the value behind its equals sign. -/
def word (r : Reading) (name : String) (value? : Option String) :
    Except ArgumentsError Reading :=
  match ofWord? name, value? with
  | some f, none => r.flag f
  | some _, some _ => .error .unexpectedValue
  | none, value? =>
    if name = "staging-dir" then do
      let r := { ← r.settle with pending := some (.stagingDirectory value?) }
      match value? with
      | none => return r
      | some _ => r.settle
    else .error .unknownArgument

/-- Whether what stands behind a dash looks like a number: digits with at most one point,
which is not in front, and at most one `e`, which is neither in front nor at the end and has
no point behind it. -/
def looksNumeric (cs : List Char) : Bool :=
  let mantissa := cs.takeWhile (· ≠ 'e')
  let front := mantissa.takeWhile (· ≠ '.')
  let back := (mantissa.dropWhile (· ≠ '.')).drop 1
  let digits (ds : List Char) := ds.all Char.isDigit
  let exponent :=
    match cs.dropWhile (· ≠ 'e') with
    | [] => true
    | _ :: ds => !ds.isEmpty && digits ds
  !front.isEmpty && digits front && digits back && exponent

/-- Reads one argument. -/
def step (r : Reading) (argument : String) : Except ArgumentsError Reading :=
  if r.valuesOnly then r.positional argument
  else
    match argument.toList with
    | ['-', '-'] => .ok { r with valuesOnly := true }
    | '-' :: '-' :: cs =>
      let name := String.ofList (cs.takeWhile (· ≠ '='))
      match cs.dropWhile (· ≠ '=') with
      | [] => r.word name none
      | _ :: value => r.word name (some (String.ofList value))
    | '-' :: c :: cs =>
      -- behind the archive, a negative number is the mode and no option
      if r.positionals = 1 ∧ looksNumeric (c :: cs) then r.value argument
      else r.letters (c :: cs)
    | _ => r.value argument

/-- What the arguments ask for, when there are no more of them. -/
def finish (r : Reading) : Except ArgumentsError Arguments := do
  let r ← r.settle
  match r.archive with
  | none => .error .missingArchive
  | some archive =>
    return {
      archive, mode := r.mode, parallel := r.parallel, stagingDirectory := r.stagingDirectory,
      verbose := r.verbose }

end Reading

/-- Reads the arguments of a program. -/
def Arguments.read (arguments : List String) : Except ArgumentsError Arguments := do
  (← arguments.foldlM Reading.step Reading.start).finish

end Defuse
