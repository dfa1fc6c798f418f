import LieScribe.Proofs.Integers
import LieScribe.Proofs.Reading.Grammar

/-!
# The tree of an expression in a target language

The tree that a program text should have for an expression, said without any text.
Sums, products and differences are joined from the left; in a sum, a negated term and
a negative literal become subtractions; a negative literal is a change of sign.  The
targets differ in the functions they call, in the operations that are functions, and
in where an integer has to be converted so that no quotient is one of integers.
-/

namespace LieScribe

/-- The operator of a comparison. -/
def Operation.comparison? : Operation → Option Operator
  | .lt => some .lt
  | .le => some .le
  | .gt => some .gt
  | .ge => some .ge
  | _ => none

namespace ParseTree

def ofSymbol : Symbol → ParseTree
  | .named text => .name text
  | .element array index => .element array index

/-- An integer is a number without a sign, or a change of sign of one. -/
def ofInt (value : Int) : ParseTree :=
  if value < 0 then .negative (.integer value.natAbs) else .integer value.natAbs

/-- A finite number, with its sign bit as a change of sign. -/
def ofFloat (value : Float) : ParseTree :=
  if Decimal.isSignNegative value then .negative (.decimal (-value)) else .decimal value

end ParseTree

/-- An argument of an operation and its tree. -/
structure TreeOperand where
  source : Expr
  tree : ParseTree

/-! ## Python -/

namespace Python

def literalTree : Literal → ParseTree
  | .int value => .ofInt value.toInt
  | .float value =>
      if value.isNaN then
        .call "float" [.quoted "nan"]
      else if value.isInf then
        if value > 0.0 then
          .call "float" [.quoted "inf"]
        else
          .negative (.call "float" [.quoted "inf"])
      else
        .ofFloat value

/-- The function that computes an operation. -/
def functionName : Operation → String
  | .abs => "abs"
  | .min => "min"
  | .max => "max"
  | .asin => "numpy.arcsin"
  | .acos => "numpy.arccos"
  | .atan => "numpy.arctan"
  | .atan2 => "numpy.arctan2"
  | operation => "numpy." ++ operation.name

/-- A numerator as a float. -/
def floatTree (numerator : TreeOperand) : ParseTree :=
  match numerator.source with
  | .literal (.int value) => literalTree (.float (Literal.doubleOfInt value))
  | _ => .call "float" [numerator.tree]

/-- The tree of an operation other than a sum.  Where quotients of integers are
floored, their numerators are made floats. -/
def combineTree (target : Target) (floors : Bool) :
    Operation → List TreeOperand → ParseTree
  | .sub, first :: others => (others.map (·.tree)).foldl (.binary .sub) first.tree
  | .mul, first :: others => (others.map (·.tree)).foldl (.binary .mul) first.tree
  | .div, [numerator, denominator] =>
      if floors && target.isInteger numerator.source && target.isInteger denominator.source then
        .binary .div (floatTree numerator) denominator.tree
      else
        .binary .div numerator.tree denominator.tree
  | .pow, [base, exponent] => .binary .pow base.tree exponent.tree
  | .neg, [operand] => .negative operand.tree
  | operation, operands =>
      match operation.comparison?, operands with
      | some operator, [left, right] => .binary operator left.tree right.tree
      | _, _ => .call (functionName operation) (operands.map (·.tree))

end Python

/-! ## C++ -/

namespace Cpp

/-- The least integer is a difference, as its magnitude is no literal. -/
def literalTree : Literal → ParseTree
  | .int value =>
      if value = Int64.minValue then
        .binary .sub (.negative (.integer 9223372036854775807)) (.integer 1)
      else
        .ofInt value.toInt
  | .float value =>
      if value.isNaN then
        .call "std::numeric_limits<Scalar>::quiet_NaN" []
      else if value.isInf then
        if value > 0.0 then
          .call "std::numeric_limits<Scalar>::infinity" []
        else
          .negative (.call "std::numeric_limits<Scalar>::infinity" [])
      else
        .call "Scalar" [.ofFloat value]

/-- The function that computes an operation. -/
def functionName : Operation → String
  | .abs => "std::fabs"
  | operation => "std::" ++ operation.name

/-- An argument of a function that takes scalars only: a literal integer is
converted as it stands. -/
def scalarTree (argument : TreeOperand) : ParseTree :=
  match argument.source with
  | .literal (.int value) => .call "Scalar" [.ofInt value.toInt]
  | _ => argument.tree

/-- Two-argument calls nested to the left, over all arguments in order. -/
def nestedCall (callee : String) (first : TreeOperand) (others : List TreeOperand) :
    ParseTree :=
  (others.map scalarTree).foldl (fun inner argument => .call callee [inner, argument])
    (scalarTree first)

/-- The tree of an operation other than a sum.  An integer numerator over an integer
denominator is made a scalar. -/
def combineTree (target : Target) : Operation → List TreeOperand → ParseTree
  | .sub, first :: others => (others.map (·.tree)).foldl (.binary .sub) first.tree
  | .mul, first :: others => (others.map (·.tree)).foldl (.binary .mul) first.tree
  | .div, [numerator, denominator] =>
      if target.isInteger numerator.source && target.isInteger denominator.source then
        .binary .div (.call "Scalar" [numerator.tree]) denominator.tree
      else
        .binary .div numerator.tree denominator.tree
  | .pow, [base, exponent] => .call "std::pow" [scalarTree base, scalarTree exponent]
  | .neg, [operand] => .negative operand.tree
  | .sign, [operand] =>
      .call "Scalar"
        [.binary .sub (.binary .gt operand.tree (.integer 0))
          (.binary .lt operand.tree (.integer 0))]
  | .min, first :: others => nestedCall "std::min<Scalar>" first others
  | .max, first :: others => nestedCall "std::max<Scalar>" first others
  | operation, operands =>
      match operation.comparison?, operands with
      | some operator, [left, right] =>
          .call "Scalar" [.binary operator left.tree right.tree]
      | _, _ => .call (functionName operation) (operands.map (·.tree))

end Cpp

/-! ## The walk -/

namespace Target

def literalTree : Target → Literal → ParseTree
  | .python2 | .python3 => Python.literalTree
  | .cpp => Cpp.literalTree

def combineTree (target : Target) : Operation → List TreeOperand → ParseTree :=
  match target with
  | .python2 => Python.combineTree target true
  | .python3 => Python.combineTree target false
  | .cpp => Cpp.combineTree target

/-- A literal as a further term of a sum.  One with a negative value is subtracted,
except for the least integer, which has no opposite. -/
def addLiteral (target : Target) (left : ParseTree) : Literal → ParseTree
  | .int value =>
      if value < 0 ∧ value ≠ Int64.minValue then
        .binary .sub left (.integer value.toInt.natAbs)
      else
        .binary .add left (target.literalTree (.int value))
  | .float value =>
      if value < 0.0 then
        .binary .sub left (target.literalTree (.float (-value)))
      else
        .binary .add left (target.literalTree (.float value))

mutual

/-- The tree of an expression. -/
def tree (target : Target) : Expr → ParseTree
  | .symbol leaf => .ofSymbol leaf
  | .literal constant => target.literalTree constant
  | .op .add (first :: others) => target.addTerms (target.tree first) others
  | .op operation arguments => target.combineTree operation (target.treeOperands arguments)

def treeOperands (target : Target) : List Expr → List TreeOperand
  | [] => []
  | argument :: others => ⟨argument, target.tree argument⟩ :: target.treeOperands others

/-- Add further terms to a sum; a negated one is subtracted. -/
def addTerms (target : Target) (left : ParseTree) : List Expr → ParseTree
  | [] => left
  | .op .neg [operand] :: others =>
      target.addTerms (.binary .sub left (target.tree operand)) others
  | .literal constant :: others =>
      target.addTerms (target.addLiteral left constant) others
  | term :: others =>
      target.addTerms (.binary .add left (target.tree term)) others

end

theorem tree_op {target : Target} {operation : Operation} (notSum : operation ≠ .add)
    (arguments : List Expr) :
    target.tree (.op operation arguments) =
      target.combineTree operation (target.treeOperands arguments) := by
  rw [tree]
  rintro first others rfl
  exact absurd rfl notSum

theorem treeOperands_eq_map (target : Target) (exprs : List Expr) :
    target.treeOperands exprs = exprs.map fun expr => ⟨expr, target.tree expr⟩ := by
  induction exprs with
  | nil =>
      rfl
  | cons first others inductionHypothesis =>
      rw [treeOperands, inductionHypothesis, List.map_cons]

theorem map_source_treeOperands (target : Target) (exprs : List Expr) :
    (target.treeOperands exprs).map (·.source) = exprs := by
  rw [treeOperands_eq_map, List.map_map]
  exact List.map_id exprs

end Target

end LieScribe
