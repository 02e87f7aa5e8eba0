import Defuse.Decimal.Shortest
import Defuse.Text.Quoted

/-!
# Tokens

* `Position` — a line and a column, both counted from one, the column in characters;
* `Token`, `Located` — the tokens of a replacement body, and where they start;
* `Token.shown` — how a message shows a token.
-/

namespace Defuse

/-- A place in a source text. -/
structure Position where
  /-- The line. -/
  line : Nat
  /-- The column, in characters. -/
  column : Nat
deriving DecidableEq, Repr, Inhabited

namespace Position

/-- Where a source text starts. -/
def start : Position := ⟨1, 1⟩

/-- The place behind a character. -/
def after (p : Position) (c : Char) : Position :=
  if c = '\n' then ⟨p.line + 1, 1⟩ else ⟨p.line, p.column + 1⟩

/-- The place behind a text. -/
def afterAll (p : Position) (cs : List Char) : Position := cs.foldl after p

@[simp] theorem afterAll_nil (p : Position) : p.afterAll [] = p := rfl

@[simp] theorem afterAll_cons (p : Position) (c : Char) (cs : List Char) :
    p.afterAll (c :: cs) = (p.after c).afterAll cs := rfl

@[simp] theorem afterAll_append (p : Position) (cs ds : List Char) :
    p.afterAll (cs ++ ds) = (p.afterAll cs).afterAll ds := by
  simp [afterAll]

end Position

/-- The tokens of a replacement body.  Numbers are magnitudes: a sign is a token of its own.
Floating-point numbers are bit patterns. -/
inductive Token where
  | int (value : Nat)
  | long (value : Nat)
  | float (bits : UInt32)
  | double (bits : UInt64)
  | string (text : String)
  | char (unit : UInt16)
  | name (text : String)
  | return
  | throw
  | new
  | null
  | true
  | false
  | plus
  | minus
  | leftParen
  | rightParen
  | leftBrace
  | rightBrace
  | semicolon
  | comma
  | dot
  | endOfInput
deriving DecidableEq, Repr, Inhabited

/-- A token and the place where it starts. -/
structure Located where
  /-- The token. -/
  token : Token
  /-- Where it starts. -/
  position : Position
deriving DecidableEq, Repr, Inhabited

namespace Token

/-- Messages write numbers from a tenth of a thousandth to below ten to the sixteenth with a
point alone, all others with a power of ten. -/
def numberLayout : Decimal.Layout := ⟨-4, 16⟩

/-- How a message shows a token. -/
def shown : Token → String
  | int value => s!"IntLiteral({value})"
  | long value => s!"LongLiteral({value})"
  | float bits =>
    "FloatLiteral(" ++ numberLayout.render Binary.single bits.toNat ++ ")"
  | double bits =>
    "DoubleLiteral(" ++ numberLayout.render Binary.double bits.toNat ++ ")"
  | string text => "StringLiteral(" ++ Text.quoted text ++ ")"
  | char unit => s!"CharLiteral({unit})"
  | name text => "Ident(" ++ Text.quoted text ++ ")"
  | .return => "Return"
  | .throw => "Throw"
  | new => "New"
  | null => "Null"
  | .true => "True"
  | .false => "False"
  | plus => "Plus"
  | minus => "Minus"
  | leftParen => "LParen"
  | rightParen => "RParen"
  | leftBrace => "LBrace"
  | rightBrace => "RBrace"
  | semicolon => "Semicolon"
  | comma => "Comma"
  | dot => "Dot"
  | endOfInput => "Eof"

/-- The tokens that are spelled like names. -/
def keyword? : String → Option Token
  | "return" => some .return
  | "throw" => some .throw
  | "new" => some new
  | "null" => some null
  | "true" => some .true
  | "false" => some .false
  | _ => none

/-- The token of a word. -/
def ofWord (text : String) : Token := (keyword? text).getD (name text)

end Token

end Defuse
