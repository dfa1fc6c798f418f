import LieScribe.Target.Fragment

/-!
# C++

Code is written for an arbitrary floating type `Scalar`.  Variables, float literals
and calls are scalars, while integer literals and sums and products of them are
integers; an integer numerator over an integer denominator is made a scalar, so
that no quotient is one of integers.
-/

namespace LieScribe.Cpp

/-- A conversion to the floating type. -/
def scalar (text : String) : String :=
  Fragment.callText "Scalar" [text]

/-- The text of a literal.  The least integer has no literal of its own, so it is
written as a difference. -/
def literal : Literal → Fragment
  | .int value =>
      if value = Int64.minValue then
        ⟨Fragment.parenthesized ((Literal.int (value + 1)).text ++ " - 1"),
          .atom, true⟩
      else
        ⟨(Literal.int value).text, if value < 0 then .unary else .atom, true⟩
  | .float value =>
      if value.isNaN then
        .atom "std::numeric_limits<Scalar>::quiet_NaN()"
      else if value.isInf then
        if value > 0.0 then
          .atom "std::numeric_limits<Scalar>::infinity()"
        else
          ⟨"-std::numeric_limits<Scalar>::infinity()", .unary, false⟩
      else
        .atom (scalar (Literal.float value).text)

/-- The function that computes an operation. -/
def callee? : Operation → Option String
  | .abs => some "std::fabs"
  | .sin => some "std::sin"
  | .cos => some "std::cos"
  | .tan => some "std::tan"
  | .asin => some "std::asin"
  | .acos => some "std::acos"
  | .atan => some "std::atan"
  | .atan2 => some "std::atan2"
  | .sqrt => some "std::sqrt"
  | .exp => some "std::exp"
  | .log => some "std::log"
  | _ => none

/-- An argument of a function on scalars: an integer literal is converted. -/
def scalarArgument (operand : Operand) : String :=
  match operand.intLiteral? with
  | some value => scalar (Literal.int value).text
  | none => operand.fragment.text

/-- A function of two arguments applied to several, from the left. -/
def foldedCall (callee : String) : List Operand → Fragment
  | [] => .atom ""
  | first :: others =>
      .atom ((others.map scalarArgument).foldl
        (fun joined argument => Fragment.callText callee [joined, argument])
        (scalarArgument first))

/-- The sign of a scalar, as the difference of two comparisons. -/
def signText (operand : String) : String :=
  let side := Fragment.parenthesized operand
  scalar (Fragment.parenthesized (side ++ " > 0") ++ " - " ++
    Fragment.parenthesized (side ++ " < 0"))

/-- A quotient; an integer numerator over an integer denominator becomes a
scalar. -/
def quotient (numerator denominator : Fragment) : Fragment :=
  Fragment.quotient " / "
    (if numerator.integer && denominator.integer then
      .atom (scalar numerator.text)
    else
      numerator)
    denominator

/-- The text of an operation other than a sum. -/
def combine? : Operation → List Operand → Option Fragment
  | .sub, operands => some (.chain " - " .sum (operands.map (·.fragment)))
  | .mul, operands => some (.chain " * " .product (operands.map (·.fragment)))
  | .div, [numerator, denominator] =>
      some (quotient numerator.fragment denominator.fragment)
  | .pow, [base, exponent] =>
      some (.atom (Fragment.callText "std::pow"
        [scalarArgument base, scalarArgument exponent]))
  | .neg, [operand] => some operand.fragment.negation
  | .sign, [operand] => some (.atom (signText operand.fragment.text))
  | .min, operands => some (foldedCall "std::min<Scalar>" operands)
  | .max, operands => some (foldedCall "std::max<Scalar>" operands)
  | operation, operands =>
      match operation.comparisonSign?, operands with
      | some operator, [left, right] =>
          some (.atom (scalar
            (Fragment.comparison operator left.fragment right.fragment).text))
      | _, _ =>
          (callee? operation).map fun callee =>
            .atom (Fragment.callText callee
              (operands.map (·.fragment.text)))

end LieScribe.Cpp
