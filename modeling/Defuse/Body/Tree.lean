/-!
# Bodies as trees

A replacement body is a list of statements, each of which leaves the method.

* `Expression` — what is returned, or handed to a constructor;
* `Statement` — `return` with or without a value, and `throw`.
-/

namespace Defuse

/-- An expression as it is written.  Whole numbers are magnitudes of any size: whether one
is in range depends on the sign in front of it. -/
inductive Expression where
  | string (text : String)
  | char (unit : UInt16)
  | int (value : Nat)
  | long (value : Nat)
  | float (bits : UInt32)
  | double (bits : UInt64)
  | boolean (value : Bool)
  | null
  | negate (operand : Expression)
  | add (left right : Expression)
  /-- A new object of a class; the name is dotted, as it is written. -/
  | new (name : String) (arguments : List Expression)
deriving Repr, Inhabited

/-- A statement. -/
inductive Statement where
  | return (value : Option Expression)
  | throw (thrown : Expression)
deriving Repr, Inhabited

end Defuse
