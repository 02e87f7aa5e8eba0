import Defuse.Bytes
import Defuse.Text.Utf8

namespace Defuse

/-!
# Type descriptors

A class file spells the types of a method in a compact form: a letter for each primitive
type and for `void`, `L`, a class name and a semicolon for a class, an opening bracket in
front of the element type for an array.

* `JavaType` — the types, with their two spellings `descriptor` and `sourceName`;
* `JavaType.read` — reads one descriptor off the front of a text;
* `JavaType.scanAt`, `JavaType.readAt` — the same at a byte position, where the name of a class is
  cut out of the text by the positions of its bytes;
* `MethodType.read` — a parenthesised list of parameter types and a return type.
-/

/-- The types a descriptor can spell. -/
inductive JavaType where
  | int
  | long
  | float
  | double
  | byte
  | char
  | short
  | boolean
  | void
  | reference (name : String)
  | array (element : JavaType)
deriving DecidableEq, Repr, Inhabited

namespace JavaType

/-- The text of a descriptor. -/
def descriptor : JavaType → List Char
  | int => ['I']
  | long => ['J']
  | float => ['F']
  | double => ['D']
  | byte => ['B']
  | char => ['C']
  | short => ['S']
  | boolean => ['Z']
  | void => ['V']
  | reference name => 'L' :: name.toList ++ [';']
  | array element => '[' :: element.descriptor

/-- The spelling in a source text. -/
def sourceName : JavaType → String
  | int => "int"
  | long => "long"
  | float => "float"
  | double => "double"
  | byte => "byte"
  | char => "char"
  | short => "short"
  | boolean => "boolean"
  | void => "void"
  | reference name => name.map fun c => if c = '/' then '.' else c
  | array element => element.sourceName ++ "[]"

/-- Whether a value takes two slots of the stack and of the local variables. -/
def isWide : JavaType → Bool
  | long | double => true
  | _ => false

/-- The slots a value takes. -/
def slots (t : JavaType) : Nat := if t.isWide then 2 else 1

/-- The slots a returned value takes; `void` returns none. -/
def returnSlots : JavaType → Nat
  | void => 0
  | t => t.slots

/-! ### Reading -/

/-- The type that a letter spells by itself. -/
def ofLetter? : Char → Option JavaType
  | 'B' => some byte
  | 'C' => some char
  | 'D' => some double
  | 'F' => some float
  | 'I' => some int
  | 'J' => some long
  | 'S' => some short
  | 'Z' => some boolean
  | 'V' => some void
  | _ => none

/-- Reads the name and the semicolon of a class; the name may not be empty. -/
def readClass (cs : List Char) : Option (JavaType × List Char) :=
  match cs.takeWhile (· ≠ ';'), cs.dropWhile (· ≠ ';') with
  | name@(_ :: _), _ :: rest => some (reference (String.ofList name), rest)
  | _, _ => none

/-- Reads one descriptor and leaves the text behind it.  There are no arrays of `void`. -/
def read : List Char → Option (JavaType × List Char)
  | [] => none
  | '[' :: cs =>
    match read cs with
    | some (void, _) | none => none
    | some (element, rest) => some (array element, rest)
  | 'L' :: cs => readClass cs
  | c :: cs => (ofLetter? c).map (·, cs)

/-- The number of characters of a descriptor. -/
def width (t : JavaType) : Nat := t.descriptor.length

/-- A descriptor has at least one character. -/
theorem width_pos (t : JavaType) : 0 < t.width := by
  cases t <;> simp [width, descriptor]

/-- The number of bytes of a text. -/
def bytesOf (cs : List Char) : Nat := cs.foldl (fun n c => n + c.utf8Size) 0

/-- The text from a byte position on, if a character begins there. -/
def fromByte : List Char → Nat → Option (List Char)
  | cs, 0 => some cs
  | [], _ + 1 => none
  | c :: cs, n + 1 => if c.utf8Size ≤ n + 1 then fromByte cs (n + 1 - c.utf8Size) else none

/-! ### Reading at a byte position -/

/-- A piece of a text is asked for that is none: no character begins at one of its ends, or the
text ends before it, or its end comes before its beginning. -/
structure BadCut where
  start : Nat
  stop : Nat
deriving DecidableEq, Repr

/-- The characters from a byte position on. -/
def cutFrom (text : String) (start : Nat) : Except BadCut (List Char) :=
  match fromByte text.toList start with
  | some cs => .ok cs
  | none => .error ⟨start, text.utf8ByteSize⟩

/-- The characters between two byte positions. -/
def cut (text : String) (start stop : Nat) : Except BadCut (List Char) :=
  match fromByte text.toList start, fromByte text.toList stop with
  | some cs, some rest =>
    if start ≤ stop then .ok (cs.take (cs.length - rest.length)) else .error ⟨start, stop⟩
  | _, _ => .error ⟨start, stop⟩

/-- Reads the name and the semicolon of a class from a byte position on, and tells the position
behind them. -/
def scanClass (text : String) (start : Nat) : Except BadCut (Option (JavaType × Nat)) := do
  let behind ← cutFrom text start
  if ';' ∈ behind then
    let stop := start + bytesOf (behind.takeWhile (· ≠ ';'))
    match ← cut text start stop with
    | [] => return none
    | name => return some (reference (String.ofList name), stop + 1)
  else return none

/-- Reads one descriptor off the bytes of a text from a position on, and tells the position behind
it. -/
def scan (text : String) : Bytes → Nat → Except BadCut (Option (JavaType × Nat))
  | [], _ => .ok none
  | b :: bs, position =>
    match Char.ofUInt8 b with
    | '[' => (scan text bs (position + 1)).map fun
      | none | some (void, _) => none
      | some (element, next) => some (array element, next)
    | 'L' => scanClass text (position + 1)
    | c => .ok ((ofLetter? c).map (·, position + 1))

/-- Reads one descriptor at a byte position and tells the position behind it. -/
def scanAt (text : String) (position : Nat) : Except BadCut (Option (JavaType × Nat)) :=
  scan text ((Text.Utf8.encode text).drop position) position

/-- What is read at a byte position. -/
def readAt (text : String) (position : Nat) : Option (JavaType × Nat) :=
  match scanAt text position with
  | .ok found => found
  | .error _ => none

end JavaType

/-! ### Methods -/

/-- The types of a method. -/
structure MethodType where
  /-- The types of the parameters. -/
  parameters : List JavaType
  /-- The type of the returned value, or `void`. -/
  returned : JavaType
deriving DecidableEq, Repr

namespace MethodType

/-- Reads parameter types behind already read ones, which are given backwards, until they
take up as many characters as `left`. -/
def readParameters (acc : List JavaType) (left : Nat) (cs : List Char) :
    Option (List JavaType) :=
  if left = 0 then some acc.reverse
  else
    match JavaType.read cs with
    | none => none
    | some (t, rest) =>
      if t = .void then none else readParameters (t :: acc) (left - t.width) rest
termination_by left
decreasing_by have := t.width_pos; omega

/-- Reads a method descriptor.  The parameters end at the first closing parenthesis, and
the return type behind it ends with the text. -/
def read (text : String) : Option MethodType :=
  match text.toList with
  | '(' :: cs =>
    let inside := cs.takeWhile (· ≠ ')')
    match cs.dropWhile (· ≠ ')') with
    | [] => none
    | _ :: behind =>
      match readParameters [] inside.length cs, JavaType.read behind with
      | some parameters, some (returned, []) => some ⟨parameters, returned⟩
      | _, _ => none
  | _ => none

/-- The slots that the parameters take. -/
def parameterSlots (m : MethodType) : Nat := (m.parameters.map JavaType.slots).sum

end MethodType

/-! ### What a letter reads as -/

theorem JavaType.ofLetter?_eq_some {c : Char} {t : JavaType} (h : ofLetter? c = some t) :
    t.descriptor = [c] := by
  unfold ofLetter? at h
  split at h <;> simp_all <;> (subst h; rfl)

example : MethodType.read "(IJ[B)V" = some ⟨[.int, .long, .array .byte], .void⟩ := by decide +kernel

example : MethodType.read "(V)V" = none := by decide +kernel

end Defuse
