import Defuse.Bytes

/-!
# Releases of the library

The factory class of the lookups gained members over time, and class files hold the names of
their members as they are.  Two of the names tell the range of releases a factory class
belongs to.

* `Release`, `Release.shown`;
* `Release.ofFactory` — the release of a factory class.
-/

namespace Defuse

/-- A range of releases. -/
inductive Release where
  /-- There is no factory class. -/
  | notFound
  /-- Up to 1.4: there is no script lookup yet. -/
  | legacy
  /-- 1.5 to 1.9. -/
  | vulnerable
  /-- From 1.10: the dangerous lookups are off unless asked for. -/
  | fixed
deriving DecidableEq, Repr

namespace Release

/-- Whether the dangerous lookups are on. -/
def isVulnerable (r : Release) : Bool := r = vulnerable

/-- The text of a release. -/
def shown : Release → String
  | notFound => "not found"
  | legacy => "fixed 1.4 or below"
  | vulnerable => "vulnerable 1.5 .. 1.9"
  | fixed => "fixed 1.10 or above"

/-- The end of the names of entries that hold a factory class. -/
def factoryEntry : String := "StringLookupFactory.class"

/-- The bytes of an ASCII name. -/
def ofName (name : String) : Bytes := name.toList.map fun c => c.toNat.toUInt8

/-- A member that came with 1.10. -/
def fixedMarker : Bytes := ofName "defaultStringLookups"

/-- A member that came with 1.5. -/
def vulnerableMarker : Bytes := ofName "base64StringLookup"

/-- Whether a marker stands anywhere in a byte string. -/
def occursIn (marker : Bytes) : Bytes → Bool
  | [] => marker.isEmpty
  | b :: bs => marker.isPrefixOf (b :: bs) || occursIn marker bs

/-- The release of a factory class. -/
def ofFactory (bytes : Bytes) : Release :=
  if occursIn fixedMarker bytes then fixed
  else if occursIn vulnerableMarker bytes then vulnerable
  else legacy

end Release

end Defuse
