import Defuse.Mode

/-!
# Targets

A target is one method of one class in an archive, with the source text of its new body.

* `Target`, `Target.entryPath`, `Target.shown`;
* `Target.ofKind` — the method that a kind of lookup runs;
* `Mode.targets` — all targets of a mode.
-/

namespace Defuse

/-- A method to replace. -/
structure Target where
  /-- The internal name of the class. -/
  className : String
  /-- The name of the method. -/
  methodName : String
  /-- The descriptor of the method. -/
  descriptor : String
  /-- The source text of the new body. -/
  source : String
deriving DecidableEq, Repr

namespace Target

/-- The name of the entry that holds the class. -/
def entryPath (t : Target) : String := t.className ++ ".class"

/-- The text of a target. -/
def shown (t : Target) : String := t.className ++ "." ++ t.methodName ++ t.descriptor

/-- The package of the lookups. -/
def lookupPackage : String := "org/apache/commons/text/lookup/"

/-- The method that a lookup runs. -/
def lookupMethod : String := "lookup"

/-- The descriptor of that method: it turns a string into a string. -/
def lookupDescriptor : String := "(Ljava/lang/String;)Ljava/lang/String;"

/-- The method that a kind of lookup runs, with a body that returns a notice. -/
def ofKind (kind : LookupKind) : Target :=
  let className := lookupPackage ++ kind.name ++ "StringLookup"
  { className
    methodName := lookupMethod
    descriptor := lookupDescriptor
    source :=
      "return \"" ++ className ++ "." ++ lookupMethod ++
        " method called; this overrides the output <patch Text4Shell>\";" }

end Target

/-- The targets of a mode, in the order in which a run goes through them. -/
def Mode.targets (m : Mode) : List Target := m.kinds.map Target.ofKind

end Defuse
