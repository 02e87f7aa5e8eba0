import Defuse.Decimal.Scientific
import Defuse.Text.Blank

/-!
# Modes

How many of the dangerous lookups a run disables.

* `LookupKind`, `Mode`, `Mode.kinds`;
* `Mode.ofInt?` — modes by number;
* `Mode.ofArgument` — modes as an operator types them.
-/

namespace Defuse

/-- A kind of lookup. -/
inductive LookupKind where
  | script
  | dns
  | url
deriving DecidableEq, Repr

/-- The name of a kind of lookup, as the class for it has it. -/
def LookupKind.name : LookupKind → String
  | script => "Script"
  | dns => "Dns"
  | url => "Url"

/-- How many of the lookups are disabled. -/
inductive Mode where
  | scriptOnly
  | scriptDnsUrl
deriving DecidableEq, Repr

namespace Mode

/-- The lookups that a mode disables, in the order in which a run goes through them. -/
def kinds : Mode → List LookupKind
  | scriptOnly => [.script]
  | scriptDnsUrl => [.script, .dns, .url]

/-- The mode of a number. -/
def ofInt? (n : Int) : Option Mode :=
  if n = 0 then some scriptOnly else if n = 1 then some scriptDnsUrl else none

end Mode

/-- Why an argument is no mode. -/
inductive ModeError where
  /-- It is no whole number of 64 bits. -/
  | notInteger (argument : String)
  /-- No mode has this number. -/
  | outOfRange
deriving DecidableEq, Repr

/-- The text of an error. -/
def ModeError.message : ModeError → String
  | notInteger argument => "PATCHING_MODE given as argument <" ++ argument ++ "> is not an integer."
  | outOfRange => "Level of patching outside the available range."

namespace Mode

/-- A text without the white space around it. -/
def trimmed (cs : List Char) : List Char :=
  ((cs.dropWhile Text.isBlank).reverse.dropWhile Text.isBlank).reverse

/-- The whole number of an argument. -/
def numberOf? (argument : String) : Option Int :=
  match Decimal.intOfChars? (trimmed argument.toList) with
  | some n => if -2 ^ 63 ≤ n ∧ n < 2 ^ 63 then some n else none
  | none => none

/-- The mode that an argument asks for; without one, the script lookup only. -/
def ofArgument : Option String → Except ModeError Mode
  | none => .ok scriptOnly
  | some argument =>
    match numberOf? argument with
    | none => .error (.notInteger argument)
    | some n =>
      match ofInt? n with
      | none => .error .outOfRange
      | some mode => .ok mode

end Mode

end Defuse
