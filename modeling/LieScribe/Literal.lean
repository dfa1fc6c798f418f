import LieScribe.Decimal.Layout

/-!
# Literals

A literal is a machine integer or a double precision number.  Literals are
compared by what they denote: the two zeros are one number and there is one
value that is no number, but an integer never equals a double.
-/

namespace LieScribe

inductive Literal where
  | int (value : Int64)
  | float (value : Float)
  deriving DecidableEq, Repr

namespace Literal

/-- The double precision number nearest to an integer. -/
def doubleOfInt (value : Int64) : Float :=
  Float.ofInt value.toInt

/-- The number that a literal denotes. -/
def value : Literal → Float
  | .int value => doubleOfInt value
  | .float value => value

/-- Does the literal start with a minus sign? -/
def isNegative : Literal → Bool
  | .int value => decide (value < 0)
  | .float value => Decimal.isSignNegative value

def text : Literal → String
  | .int value => Int.repr value.toInt
  | .float value => Decimal.Layout.literal.text value

/-- The literal opposite in sign, when it is a literal too: the least integer has
none. -/
def negated? : Literal → Option Literal
  | .int value => if value = Int64.minValue then none else some (.int (-value))
  | .float value => some (.float (-value))

/-- The positive literal whose subtraction stands for adding a negative one. -/
def subtracted? : Literal → Option Literal
  | .int value => if value < 0 then negated? (.int value) else none
  | .float value => if value < 0.0 then some (.float (-value)) else none

/-- The representative of the literals equal to a given one: negative zero is
represented by zero. -/
def canonical : Literal → Literal
  | .int value => .int value
  | .float value =>
      .float (if value.toBits = 0x8000000000000000 then 0.0 else value)

/-- Equality of literals as numbers. -/
def same (left right : Literal) : Bool :=
  decide (left.canonical = right.canonical)

end Literal

end LieScribe
