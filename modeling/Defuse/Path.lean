/-!
# Paths

A path is a text of names between slashes.  Slashes in a row count as one, and a name that is
a single dot counts only in front.

* `Path.split` — a path as the directory and the last name, where there is one;
* `Path.join` — a name inside a directory;
* `Path.stem`, `Path.suffix?` — the two parts of a name, around its last dot.
-/

namespace Defuse.Path

/-- A path, given backwards, without the slashes and dots at its end that do not count. -/
def trimEnd : List Char → List Char
  | '/' :: c :: cs => trimEnd (c :: cs)
  | '.' :: '/' :: cs => trimEnd ('/' :: cs)
  | cs => cs

/-- The directory and the last name of a path, where the path ends in a name: the root, the
directory itself and the one above it are no names. -/
def split (path : String) : Option (String × String) :=
  let backwards := trimEnd path.toList.reverse
  let name := String.ofList (backwards.takeWhile (· ≠ '/')).reverse
  if name = "" ∨ name = "." ∨ name = ".." then none
  else some (String.ofList (trimEnd (backwards.dropWhile (· ≠ '/'))).reverse, name)

/-- The path of a name inside a directory. -/
def join (directory name : String) : String :=
  if directory = "" then name
  else if directory.toList.getLast? = some '/' then directory ++ name
  else directory ++ "/" ++ name

/-- The text behind the last dot of a name, if there is a dot behind the first character. -/
def suffix? (name : String) : Option String :=
  let backwards := name.toList.reverse
  match backwards.dropWhile (· ≠ '.') with
  | _ :: _ :: _ => some (String.ofList (backwards.takeWhile (· ≠ '.')).reverse)
  | _ => none

/-- A name without its last dot and what stands behind it. -/
def stem (name : String) : String :=
  match name.toList.reverse.dropWhile (· ≠ '.') with
  | _ :: c :: cs => String.ofList (c :: cs).reverse
  | _ => name

end Defuse.Path
