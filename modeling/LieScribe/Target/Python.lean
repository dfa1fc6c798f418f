import LieScribe.Target.Fragment

/-!
# Python

Arithmetic is written with the operators of the language and elementary functions
are those of `numpy`.  The two dialects differ in quotients of integers: the older
one floors them, so their numerators are made floats there.
-/

namespace LieScribe.Python

/-- The text of a literal.  Integers stay integers. -/
def literal : Literal → Fragment
  | .int value =>
      ⟨(Literal.int value).text, if value < 0 then .unary else .atom, true⟩
  | .float value =>
      if value.isNaN then
        .atom "float('nan')"
      else if value.isInf then
        if value > 0.0 then
          .atom "float('inf')"
        else
          ⟨"-float('inf')", .unary, false⟩
      else
        ⟨(Literal.float value).text,
          if Decimal.isSignNegative value then .unary else .atom, false⟩

/-- The function that computes an operation, and whether it gives an integer for
integers. -/
def callee? : Operation → Option (String × Bool)
  | .abs => some ("abs", true)
  | .min => some ("min", true)
  | .max => some ("max", true)
  | .sign => some ("numpy.sign", true)
  | .sin => some ("numpy.sin", false)
  | .cos => some ("numpy.cos", false)
  | .tan => some ("numpy.tan", false)
  | .asin => some ("numpy.arcsin", false)
  | .acos => some ("numpy.arccos", false)
  | .atan => some ("numpy.arctan", false)
  | .atan2 => some ("numpy.arctan2", false)
  | .sqrt => some ("numpy.sqrt", false)
  | .exp => some ("numpy.exp", false)
  | .log => some ("numpy.log", false)
  | _ => none

def call (callee : String) (keepsInteger : Bool) (arguments : List Fragment) :
    Fragment :=
  ⟨Fragment.callText callee (arguments.map (·.text)), .atom,
    keepsInteger && arguments.all (·.integer)⟩

/-- The numerator as a float: a literal is written as one, and everything else is
converted. -/
def floatNumerator (numerator : Operand) : Fragment :=
  match numerator.intLiteral? with
  | some value => literal (.float (Literal.doubleOfInt value))
  | none => .atom ("float" ++ Fragment.parenthesized numerator.fragment.text)

/-- A quotient.  Where quotients of integers are floored, an integer numerator over
an integer denominator becomes a float. -/
def quotient (floors : Bool) (numerator denominator : Operand) : Fragment :=
  let isFloored :=
    floors && numerator.fragment.integer && denominator.fragment.integer
  Fragment.quotient "/"
    (if isFloored then floatNumerator numerator else numerator.fragment)
    denominator.fragment

def power (base exponent : Fragment) : Fragment :=
  ⟨base.above .power ++ "**" ++ exponent.atLeast .power, .power,
    base.integer && exponent.integer⟩

/-- The text of an operation other than a sum, where `floors` tells whether
quotients of integers are floored. -/
def combine? (floors : Bool) : Operation → List Operand → Option Fragment
  | .sub, operands => some (.chain " - " .sum (operands.map (·.fragment)))
  | .mul, operands => some (.chain "*" .product (operands.map (·.fragment)))
  | .div, [numerator, denominator] =>
      some (quotient floors numerator denominator)
  | .pow, [base, exponent] => some (power base.fragment exponent.fragment)
  | .neg, [operand] => some operand.fragment.negation
  | operation, operands =>
      match operation.comparisonSign?, operands with
      | some operator, [left, right] =>
          some (.comparison operator left.fragment right.fragment)
      | _, _ =>
          (callee? operation).map fun (callee, keepsInteger) =>
            call callee keepsInteger (operands.map (·.fragment))

end LieScribe.Python
