import LieScribe.Expr.Basic

/-!
# Fragments of program text

A fragment is the text of an expression together with how tightly it binds and
whether the target computes it with integers.  Fragments are joined with as few
parentheses as the operators of both targets allow.
-/

namespace LieScribe

/-- How tightly a text binds, from comparisons to atoms. -/
inductive Precedence where
  | comparison
  | sum
  | product
  | unary
  | power
  | atom
  deriving DecidableEq, Repr

namespace Precedence

/-- Precedences as numbers; a greater number binds more tightly. -/
def level : Precedence → Nat
  | .comparison => 20
  | .sum => 30
  | .product => 40
  | .unary => 50
  | .power => 60
  | .atom => 100

end Precedence

/-- The text of an expression in a target language. -/
structure Fragment where
  text : String
  precedence : Precedence
  integer : Bool
  deriving DecidableEq, Repr

namespace Fragment

def atom (text : String) : Fragment :=
  ⟨text, .atom, false⟩

def parenthesized (text : String) : String :=
  "(" ++ text ++ ")"

/-- The text as an operand that must bind at least as tightly as `precedence`. -/
def atLeast (precedence : Precedence) (fragment : Fragment) : String :=
  if fragment.precedence.level < precedence.level then
    parenthesized fragment.text
  else
    fragment.text

/-- The text as an operand that must bind more tightly than `precedence`. -/
def above (precedence : Precedence) (fragment : Fragment) : String :=
  if fragment.precedence.level ≤ precedence.level then
    parenthesized fragment.text
  else
    fragment.text

/-- Operands joined by an operator that associates to the left. -/
def chain (operator : String) (precedence : Precedence) :
    List Fragment → Fragment
  | [] => ⟨"", precedence, true⟩
  | first :: others =>
      { text := first.atLeast precedence ++
          String.join (others.map fun other => operator ++ other.above precedence)
        precedence := precedence
        integer := (first :: others).all (·.integer) }

/-- A change of sign. -/
def negation (operand : Fragment) : Fragment :=
  ⟨"-" ++ operand.above .unary, .unary, operand.integer⟩

/-- A comparison, which is an integer. -/
def comparison (operator : String) (left right : Fragment) : Fragment :=
  ⟨left.above .comparison ++ " " ++ operator ++ " " ++ right.above .comparison,
    .comparison, true⟩

/-- A quotient, which is never an integer. -/
def quotient (operator : String) (numerator denominator : Fragment) : Fragment :=
  ⟨numerator.atLeast .product ++ operator ++ denominator.above .product,
    .product, false⟩

/-- The text of a call. -/
def callText (callee : String) (arguments : List String) : String :=
  callee ++ parenthesized (String.intercalate ", " arguments)

end Fragment

/-- A term of a sum after the first one, added or subtracted. -/
structure Term where
  subtracted : Bool
  fragment : Fragment
  deriving DecidableEq, Repr

namespace Term

def text (term : Term) : String :=
  (if term.subtracted then " - " else " + ") ++ term.fragment.above .sum

end Term

/-- A sum, with subtracted terms written as differences. -/
def Fragment.sum (first : Fragment) (terms : List Term) : Fragment :=
  { text := first.atLeast .sum ++ String.join (terms.map Term.text)
    precedence := .sum
    integer := first.integer && terms.all (·.fragment.integer) }

/-- An argument of an operation and its text. -/
structure Operand where
  source : Expr
  fragment : Fragment
  deriving Repr

namespace Operand

/-- The integer that the argument is, if it is a literal. -/
def intLiteral? (operand : Operand) : Option Int64 :=
  match operand.source with
  | .literal (.int value) => some value
  | _ => none

end Operand

/-- The sign between the sides of a comparison. -/
def Operation.comparisonSign? : Operation → Option String
  | .lt => some "<"
  | .le => some "<="
  | .gt => some ">"
  | .ge => some ">="
  | _ => none

end LieScribe
