import Defuse.Archive.Zip

/-!
# Rebuilt archives

* `Substitutions` — new content by name;
* `Archive.substituted` — the entries in their order, each with its new content or copied;
* `RebuildStats`, `Archive.rebuilt` — the bytes of that, and how many entries there are.
-/

namespace Defuse

/-- New content by the name of the entry. -/
abbrev Substitutions := List (String × Bytes)

/-- How many entries a rebuilt archive has. -/
structure RebuildStats where
  /-- All of them. -/
  written : Nat
  /-- Those with new content. -/
  substituted : Nat
deriving DecidableEq, Repr

namespace Archive

/-- An entry with its new content, or copied. -/
def Entry.substituted (subs : Substitutions) (e : Entry) : Entry :=
  match subs.lookup e.name with
  | some content => e.withContent content
  | none => e.copied

/-- An archive with new content in place of old.  Content under a name that is not there is
left out. -/
def substituted (a : Archive) (subs : Substitutions) : Archive :=
  { a with entries := a.entries.map (·.substituted subs) }

/-- How many entries a rebuilt archive has. -/
def stats (a : Archive) (subs : Substitutions) : RebuildStats where
  written := a.entries.length
  substituted := a.entries.countP fun e => (subs.lookup e.name).isSome

/-- The bytes of a rebuilt archive, if the format has room for it. -/
def rebuilt? (a : Archive) (subs : Substitutions) : Option Bytes :=
  let b := a.substituted subs
  if b.fits then some b.write else none

end Archive

end Defuse
