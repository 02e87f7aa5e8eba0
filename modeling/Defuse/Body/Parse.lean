import Defuse.Body.Scan
import Defuse.Body.Tree

/-!
# From tokens to statements

    body      := statement*
    statement := '{' statement* '}' | ';' | 'return' sum? ';' | 'throw' sum ';'
    sum       := operand ('+' operand)*
    operand   := '-' operand | '+' operand | primary
    primary   := literal | '(' sum ')'
               | 'new' name ('.' name)* '(' (sum (',' sum)*)? ')'

One token of look-ahead decides every choice, so a body is read by a machine that takes one
token at a time and keeps what the open constructs wait for.

* `Pending`, `Bracket`, `Nesting` — what an unfinished expression waits for;
* `Juncture`, `Parse` — the machine between two tokens;
* `Parse.step` — the machine on one token, or why the token does not fit;
* `parse`, `parseBody` — all tokens.

Blocks are flattened, and empty statements, parentheses and plus signs leave no trace.
-/

namespace Defuse

/-! ### What is still open -/

/-- What waits for the operand that is being read. -/
structure Pending where
  /-- The sum in front of it. -/
  left : Option Expression
  /-- The number of minus signs in front of it. -/
  negations : Nat

/-- Nothing waits. -/
def Pending.none : Pending := ⟨.none, 0⟩

/-- The sum up to and including a primary expression. -/
def Pending.close (p : Pending) (primary : Expression) : Expression :=
  let operand := Nat.repeat .negate p.negations primary
  match p.left with
  | .none => operand
  | some left => .add left operand

/-- An open bracket. -/
inductive Bracket where
  /-- Parentheses around a sum. -/
  | group
  /-- The arguments of a constructor, with those already read, last one first. -/
  | arguments (name : String) (given : List Expression)

/-- The statements that hold an expression. -/
inductive Head where
  | return
  | throw

/-- Where an unfinished expression stands: the statement, and the open brackets, innermost
first, each with what waits for it to be closed. -/
structure Nesting where
  /-- The statement. -/
  head : Head
  /-- The brackets. -/
  brackets : List (Bracket × Pending)

/-- The statement that an expression completes. -/
def Head.statement : Head → Expression → Statement
  | .return, e => .return (some e)
  | .throw, e => .throw e

/-- Where a body can be left off. -/
inductive Juncture where
  /-- Before a statement. -/
  | statement
  /-- Behind `return`. -/
  | returned
  /-- Before an operand, or within the signs in front of it. -/
  | operand (nesting : Nesting) (pending : Pending)
  /-- Behind an operand. -/
  | operator (nesting : Nesting) (sum : Expression)
  /-- Before a part of a class name, behind other parts and their points. -/
  | className (nesting : Nesting) (pending : Pending) (front : String)
  /-- Behind a part of a class name. -/
  | classTail (nesting : Nesting) (pending : Pending) (name : String)
  /-- Behind the parenthesis that opens the arguments. -/
  | arguments (nesting : Nesting) (pending : Pending) (name : String)

/-- The machine between two tokens. -/
structure Parse where
  /-- The statements already read, last one first. -/
  statements : List Statement
  /-- The number of open blocks. -/
  depth : Nat
  /-- Where the body is left off. -/
  juncture : Juncture

namespace Parse

/-- Before the first token. -/
def start : Parse := ⟨[], 0, .statement⟩

/-! ### One token -/

/-- The expression that a token spells by itself. -/
def literal? : Token → Option Expression
  | .int value => some (.int value)
  | .long value => some (.long value)
  | .float bits => some (.float bits)
  | .double bits => some (.double bits)
  | .string text => some (.string text)
  | .char unit => some (.char unit)
  | .true => some (.boolean true)
  | .false => some (.boolean false)
  | .null => some .null
  | _ => none

/-- A token before an operand. -/
def onOperand (n : Nesting) (p : Pending) (t : Token) : Except GrammarError Juncture :=
  match literal? t with
  | some e => .ok (.operator n (p.close e))
  | none =>
    match t with
    | .minus => .ok (.operand n { p with negations := p.negations + 1 })
    | .plus => .ok (.operand n p)
    | .leftParen => .ok (.operand { n with brackets := (.group, p) :: n.brackets } .none)
    | .new => .ok (.className n p "")
    | .name text => .error (.unresolved text)
    | t => .error (.expectedExpression t)

/-- A new object closes an operand. -/
def onNew (n : Nesting) (p : Pending) (name : String) (given : List Expression) : Juncture :=
  .operator n (p.close (.new name given.reverse))

/-- A token behind an operand, inside a bracket. -/
def onBracket (head : Head) (bracket : Bracket) (p : Pending)
    (outer : List (Bracket × Pending)) (sum : Expression) (t : Token) :
    Except GrammarError Juncture :=
  match bracket, t with
  | .group, .rightParen => .ok (.operator ⟨head, outer⟩ (p.close sum))
  | .arguments name given, .rightParen => .ok (onNew ⟨head, outer⟩ p name (sum :: given))
  | .arguments name given, .comma =>
    .ok (.operand ⟨head, (.arguments name (sum :: given), p) :: outer⟩ .none)
  | _, t => .error (.expected .rightParen t)

/-- The machine on one token.  At the end of the input no statement and no block may be
open. -/
def step (m : Parse) (t : Token) : Except GrammarError Parse :=
  let go (juncture : Juncture) : Parse := { m with juncture }
  let finish (s : Statement) : Parse :=
    { m with statements := s :: m.statements, juncture := .statement }
  match m.juncture with
  | .statement =>
    match t with
    | .leftBrace => .ok { m with depth := m.depth + 1 }
    | .semicolon => .ok m
    | .return => .ok (go .returned)
    | .throw => .ok (go (.operand ⟨.throw, []⟩ .none))
    -- only a block that was opened in the source can be closed
    | .rightBrace =>
      if m.depth = 0 then .error (.unsupportedStatement t)
      else .ok { m with depth := m.depth - 1 }
    | .endOfInput => if m.depth = 0 then .ok m else .error .openBlock
    | t => .error (.unsupportedStatement t)
  | .returned =>
    if t = .semicolon then .ok (finish (.return .none))
    else (onOperand ⟨.return, []⟩ .none t).map go
  | .operand n p => (onOperand n p t).map go
  | .operator n sum =>
    match t with
    -- the sum so far waits for the next operand
    | .plus => .ok (go (.operand n ⟨some sum, 0⟩))
    | .minus => .error .binaryMinus
    | t =>
      match n.brackets with
      | (bracket, p) :: outer => (onBracket n.head bracket p outer sum t).map go
      | [] =>
        if t = .semicolon then .ok (finish (n.head.statement sum))
        else .error (.expected .semicolon t)
  | .className n p front =>
    -- a name ends with a part, not with a point
    match t with
    | .name text => .ok (go (.classTail n p (front ++ text)))
    | t => .error (.expectedName t)
  | .classTail n p name =>
    match t with
    | .dot => .ok (go (.className n p (name ++ ".")))
    | .leftParen => .ok (go (.arguments n p name))
    | t => .error (.expected .leftParen t)
  | .arguments n p name =>
    if t = .rightParen then .ok (go (onNew n p name []))
    -- the token is the first one of an argument
    else
      (onOperand { n with brackets := (.arguments name [], p) :: n.brackets } .none t).map go

/-- The machine on a token with a place, which is the place of the error too. -/
def advance (m : Parse) (t : Located) : Except CompileError Parse :=
  match m.step t.token with
  | .ok m => .ok m
  | .error cause => .error (.grammar t.position cause)

end Parse

/-- The statements of a list of tokens that ends with the end of the input. -/
def parse (tokens : List Located) : Except CompileError (List Statement) :=
  match tokens.foldlM Parse.advance Parse.start with
  | .ok m => .ok m.statements.reverse
  | .error e => .error e

/-- The statements of a source text. -/
def parseBody (source : String) : Except CompileError (List Statement) :=
  match tokenize source with
  | .ok tokens => parse tokens
  | .error e => .error e

end Defuse
