import Defuse.Body.Token
import Defuse.Class.Pool
import Defuse.Descriptor

/-!
# Why a body does not compile

The causes, one type for each stage, and their texts.

* `ScanError`, `GrammarError` — causes with a place in the source;
* `TypeError` — a value that does not fit;
* `GenerationError` — what cannot be expressed in the class file;
* `CompileError`, `CompileError.message` — all of them.
-/

namespace Defuse

/-- Why a source text has no tokens. -/
inductive ScanError where
  | unterminatedComment
  | unterminatedString
  | unterminatedEscape
  | illegalUnicodeEscape
  | illegalEscape (c : Char)
  | emptyCharacter
  | wideCharacter
  | unclosedCharacter
  | malformedHexadecimal
  | malformedFloating
  | integerTooLarge
  | unexpectedCharacter (c : Char)
deriving DecidableEq, Repr

/-- Why tokens are no body; `found` is the token at the place. -/
inductive GrammarError where
  | expected (wanted found : Token)
  | expectedName (found : Token)
  | openBlock
  | unsupportedStatement (found : Token)
  | binaryMinus
  | unresolved (name : String)
  | expectedExpression (found : Token)
deriving DecidableEq, Repr

/-- The types that a constant expression can have. -/
inductive ValueType where
  | string
  | int
  | long
  | float
  | double
  | boolean
  | char
  | null
deriving DecidableEq, Repr

/-- A value that does not fit where it stands. -/
inductive TypeError where
  | intTooLarge (value : Nat)
  | longTooLarge (value : Nat)
  | badOperand (type : ValueType)
  | badOperands (left right : ValueType)
  | unreachable
  | missingValue
  | unexpectedValue
  | missingReturn
  | notConvertible (source : ValueType) (target : String)
  | lossy (target : String)
deriving DecidableEq, Repr

/-- What cannot be expressed in the class file. -/
inductive GenerationError where
  | invalidDescriptor (descriptor : String)
  | newOutsideThrow (name : String)
  | throwWithoutNew
  | arguments (name : String) (count : Nat)
  | floatingConcatenation (type : ValueType)
  | textTooLong
  | poolFull
  /-- The report of a compiler other than the one for `return` and `throw`. -/
  | reported (text : String)
deriving DecidableEq, Repr

/-- Why a body does not compile. -/
inductive CompileError where
  | scan (position : Position) (cause : ScanError)
  | grammar (position : Position) (cause : GrammarError)
  | type (cause : TypeError)
  | generation (cause : GenerationError)
deriving DecidableEq, Repr

/-! ### Texts -/

/-- The text of a cause. -/
def ScanError.message : ScanError → String
  | unterminatedComment => "unterminated comment"
  | unterminatedString => "unterminated string literal"
  | unterminatedEscape => "unterminated escape sequence"
  | illegalUnicodeEscape => "illegal unicode escape"
  | illegalEscape c => "illegal escape character: '\\" ++ c.toString ++ "'"
  | emptyCharacter => "empty character literal"
  | wideCharacter => "character literal does not fit in a char"
  | unclosedCharacter => "unclosed character literal"
  | malformedHexadecimal => "malformed hexadecimal literal"
  | malformedFloating => "malformed floating-point literal"
  | integerTooLarge => "integer number too large"
  | unexpectedCharacter c => "unexpected character: '" ++ c.toString ++ "'"

/-- The text of a cause. -/
def GrammarError.message : GrammarError → String
  | expected wanted found => "expected " ++ wanted.shown ++ ", got " ++ found.shown
  | expectedName found => "expected identifier, got " ++ found.shown
  | openBlock => "reached end of input while parsing a block"
  | unsupportedStatement found =>
    "unsupported statement starting with " ++ found.shown ++
      "; only return and throw are allowed"
  | binaryMinus => "binary '-' is not supported"
  | unresolved name => "cannot resolve symbol '" ++ name ++ "': only literals are allowed"
  | expectedExpression found => "expected expression, got " ++ found.shown

/-- The spelling of a type. -/
def ValueType.sourceName : ValueType → String
  | string => "String"
  | int => "int"
  | long => "long"
  | float => "float"
  | double => "double"
  | boolean => "boolean"
  | char => "char"
  | null => "<null>"

/-- The text of a cause. -/
def TypeError.message : TypeError → String
  | intTooLarge value => s!"integer number too large: {value}"
  | longTooLarge value => s!"long number too large: {value}"
  | badOperand type => "bad operand type " ++ type.sourceName ++ " for unary operator '-'"
  | badOperands left right =>
    "bad operand types for binary operator '+': " ++ left.sourceName ++ " and " ++
      right.sourceName
  | unreachable => "unreachable statement"
  | missingValue => "missing return value"
  | unexpectedValue => "incompatible types: unexpected return value"
  | missingReturn => "missing return statement"
  | notConvertible source target =>
    "incompatible types: " ++ source.sourceName ++ " cannot be converted to " ++ target
  | lossy target => "incompatible types: possible lossy conversion from int to " ++ target

/-- The text of a cause. -/
def GenerationError.message : GenerationError → String
  | invalidDescriptor descriptor => "invalid method descriptor: " ++ descriptor
  | newOutsideThrow name => "'new " ++ name ++ "(...)' is only supported as the operand of throw"
  | throwWithoutNew => "only 'throw new <Throwable>(...)' is supported"
  | arguments name count =>
    "constructor " ++ name ++ s!" with {count} arguments is not supported"
  | floatingConcatenation type =>
    "concatenating a " ++ type.sourceName ++ " constant with a String is not supported"
  | textTooLong => "constant string too long"
  | poolFull => PoolFull.full.message
  | reported text => text

/-- A place in front of the text of a cause. -/
def Position.report (p : Position) (cause : String) : String :=
  s!"parse error at {p.line}:{p.column}: " ++ cause

/-- The text of an error. -/
def CompileError.message : CompileError → String
  | scan position cause => position.report cause.message
  | grammar position cause => position.report cause.message
  | type cause => "type error: " ++ cause.message
  | generation cause => "codegen error: " ++ cause.message

end Defuse
