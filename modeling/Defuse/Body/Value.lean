import Defuse.Body.Error
import Defuse.Body.Tree
import Defuse.Instances
import Defuse.Text.Utf16

/-!
# The values of expressions

Every expression of a body is constant: it is one value, or it has none.

* `Value` — the values, with their types;
* `Number` — numbers after promotion: a `char` is an `int`;
* `Number.add` — the wider type of the two decides, and whole numbers wrap around;
* `Value.negate`, `Value.add` — the operators, where a sum with a string on either side
  joins texts;
* `Expression.value` — the value of an expression, or the first reason why it has none.
-/

namespace Defuse

/-- A constant value. -/
inductive Value where
  | string (text : String)
  | int (value : Int32)
  | long (value : Int64)
  | float (bits : UInt32)
  | double (bits : UInt64)
  | boolean (value : Bool)
  | char (unit : UInt16)
  | null
deriving DecidableEq, Repr

/-- A number after promotion. -/
inductive Number where
  | int (value : Int32)
  | long (value : Int64)
  | float (bits : UInt32)
  | double (bits : UInt64)
deriving DecidableEq, Repr

/-! ### Numbers -/

/-- The `int` of a code unit. -/
def intOfUnit (unit : UInt16) : Int32 := Int32.ofNat unit.toNat

/-- The nearest `float` of a whole number. -/
def floatOfInt (n : Int) : UInt32 := (Binary.single.ofInt n).toUInt32

/-- The nearest `double` of a whole number. -/
def doubleOfInt (n : Int) : UInt64 := (Binary.double.ofInt n).toUInt64

/-- The `double` equal to a `float`. -/
def doubleOfFloat (bits : UInt32) : UInt64 :=
  (Binary.single.convert Binary.double bits.toNat).toUInt64

namespace Number

/-- The value of a number. -/
def toValue : Number → Value
  | int value => .int value
  | long value => .long value
  | float bits => .float bits
  | double bits => .double bits

/-- The nearest `float`. -/
def toFloat : Number → UInt32
  | int value => floatOfInt value.toInt
  | long value => floatOfInt value.toInt
  | float bits => bits
  | double bits => (Binary.double.convert Binary.single bits.toNat).toUInt32

/-- The nearest `double`. -/
def toDouble : Number → UInt64
  | int value => doubleOfInt value.toInt
  | long value => doubleOfInt value.toInt
  | float bits => doubleOfFloat bits
  | double bits => bits

/-- Turns the sign round; the least whole number stays as it is. -/
def negate : Number → Number
  | int value => .int (-value)
  | long value => .long (-value)
  | float bits => .float (Binary.single.negate bits.toNat).toUInt32
  | double bits => .double (Binary.double.negate bits.toNat).toUInt64

/-- The sum in the wider type of the two. -/
def add : Number → Number → Number
  | int a, int b => .int (a + b)
  | int a, long b => .long (a.toInt64 + b)
  | long a, int b => .long (a + b.toInt64)
  | long a, long b => .long (a + b)
  | double a, b => .double (Binary.double.add a.toNat b.toDouble.toNat).toUInt64
  | a, double b => .double (Binary.double.add a.toDouble.toNat b.toNat).toUInt64
  | a, b => .float (Binary.single.add a.toFloat.toNat b.toFloat.toNat).toUInt32

end Number

/-! ### Operators -/

namespace Value

/-- The type of a value. -/
def type : Value → ValueType
  | string _ => .string
  | int _ => .int
  | long _ => .long
  | float _ => .float
  | double _ => .double
  | boolean _ => .boolean
  | char _ => .char
  | null => .null

/-- The number that a value is promoted to. -/
def promoted? : Value → Option Number
  | int value => some (.int value)
  | long value => some (.long value)
  | float bits => some (.float bits)
  | double bits => some (.double bits)
  | char unit => some (.int (intOfUnit unit))
  | _ => none

/-- The text that a value adds to a string.  A floating-point number adds none. -/
def text : Value → Except CompileError String
  | string text => .ok text
  | int value => .ok (toString value.toInt)
  | long value => .ok (toString value.toInt)
  | boolean value => .ok (if value then "true" else "false")
  | char unit => .ok (String.singleton (Text.ofUnit unit))
  | null => .ok "null"
  | float _ => .error (.generation (.floatingConcatenation .float))
  | double _ => .error (.generation (.floatingConcatenation .double))

/-- The value with a minus sign in front. -/
def negate (v : Value) : Except CompileError Value :=
  match v.promoted? with
  | some n => .ok n.negate.toValue
  | none => .error (.type (.badOperand v.type))

/-- The text of two values. -/
def join (a b : Value) : Except CompileError Value := do
  let left ← a.text
  let right ← b.text
  return .string (left ++ right)

/-- Whether a value is a string. -/
def isString : Value → Bool
  | string _ => true
  | _ => false

/-- The sum of two values. -/
def add (a b : Value) : Except CompileError Value :=
  if a.isString || b.isString then join a b
  else
    match a.promoted?, b.promoted? with
    | some m, some n => .ok (m.add n).toValue
    | _, _ => .error (.type (.badOperands a.type b.type))

end Value

/-! ### Expressions -/

namespace Expression

/-- The least `int` or `long`, which can only be written with its sign in front of a
magnitude that by itself is out of range. -/
def least? : Expression → Option Value
  | int value => if value = 2 ^ 31 then some (.int Int32.minValue) else none
  | long value => if value = 2 ^ 63 then some (.long Int64.minValue) else none
  | _ => none

/-- The value of an expression. -/
def value : Expression → Except CompileError Value
  | string text => .ok (.string text)
  | char unit => .ok (.char unit)
  | int value =>
    if value < 2 ^ 31 then .ok (.int (Int32.ofNat value))
    else .error (.type (.intTooLarge value))
  | long value =>
    if value < 2 ^ 63 then .ok (.long (Int64.ofNat value))
    else .error (.type (.longTooLarge value))
  | float bits => .ok (.float bits)
  | double bits => .ok (.double bits)
  | boolean value => .ok (.boolean value)
  | null => .ok .null
  | negate operand =>
    -- the magnitude of a least number is too large for a literal that has no minus sign in front
    match operand.least? with
    | some least => .ok least
    | none =>
      match operand.value with
      | .ok v => v.negate
      | .error e => .error e
  | add left right =>
    match left.value with
    | .error e => .error e
    | .ok a =>
      match right.value with
      | .error e => .error e
      | .ok b => a.add b
  | new name _ => .error (.generation (.newOutsideThrow name))

end Expression

end Defuse
