import Defuse.Archive.Bits

/-!
# Codes of varying length

A compressed stream describes a code by the lengths of its words: shorter words come first,
and of equally long ones that of the smaller symbol.

* `CodeTree`, `CodeTree.decode` — a code, and the symbol of the next word of a stream;
* `CodeTree.insert` — one more word;
* `ofLengths?` — the code of a list of lengths, if the lengths use up the words.
-/

namespace Defuse.Archive

/-- Why a stream cannot be read on. -/
inductive StreamError where
  /-- It ends. -/
  | short
  /-- It breaks the format. -/
  | corrupt
deriving DecidableEq, Repr

/-- A code as a tree whose leaves are symbols; a bit that is set goes to the right. -/
inductive CodeTree where
  | empty
  | leaf (symbol : Nat)
  | node (left right : CodeTree)
deriving Repr

namespace CodeTree

/-- Reads the next word. -/
def decode : CodeTree → Bits → Except StreamError (Nat × Bits)
  | empty, _ => .error .corrupt
  | leaf symbol, s => .ok (symbol, s)
  | node left right, s =>
    match s.read with
    | none => .error .short
    | some (bit, s) => if bit then right.decode s else left.decode s

/-- Adds a word of a given length, whose bits are the number `code`, highest first. -/
def insert (symbol code : Nat) : Nat → CodeTree → CodeTree
  | 0, _ => leaf symbol
  | n + 1, t =>
    let (left, right) :=
      match t with
      | node left right => (left, right)
      | _ => (empty, empty)
    if code.testBit n then node left (insert symbol code n right)
    else node (insert symbol code n left) right

end CodeTree

/-! ### Lengths -/

/-- The longest word. -/
def maxLength : Nat := 15

/-- The first word of each length, where `counts` words have each length, up to `maxLength`:
one more than the last word before, with a zero bit behind it. -/
def firstWords (counts : List Nat) : List Nat :=
  ((counts.drop 1).foldl (fun (words, code) count => ((2 * code) :: words, 2 * code + count))
    ([0], 0)).1.reverse

/-- The number of words of each length. -/
def countsOf (lengths : List Nat) : List Nat :=
  (List.range (maxLength + 1)).map fun n => if n = 0 then 0 else lengths.count n

/-- How much of the space of words of the longest length is used up. -/
def spaceOf (counts : List Nat) : Nat := counts.foldl (fun space count => 2 * space + count) 0

/-- Adds a symbol with the next word of its length. -/
def addSymbol : CodeTree × Array Nat → Nat × Nat → CodeTree × Array Nat
  | (tree, words), (symbol, length) =>
    if length = 0 then (tree, words)
    else
      let word := words.getD length 0
      (tree.insert symbol word length, words.setIfInBounds length (word + 1))

/-- The code of a list of lengths, one for each symbol, zero for a symbol without a word.
The words must use up their space, unless `sparse` codes of a single word are allowed. -/
def ofLengths? (sparse : Bool) (lengths : List Nat) : Option CodeTree :=
  let counts := countsOf lengths
  if spaceOf counts = 2 ^ maxLength ∨ (sparse ∧ counts.sum ≤ 1) then
    some (((List.range lengths.length).zip lengths).foldl addSymbol
      (.empty, (firstWords counts).toArray)).1
  else none

end Defuse.Archive
