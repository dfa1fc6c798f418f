import LieScribe.Expr.Basic

/-!
# Formulas of a group

The operations of a group as functions of coordinates.  Five of them are given by
formulas of their own and the others follow.  A vector with too few coordinates
has no image; coordinates beyond those that a formula uses are ignored.
-/

namespace LieScribe

structure Formulas where
  identity : List Expr
  inverse : List Expr → Option (List Expr)
  compose : List Expr → List Expr → Option (List Expr)
  fromTangent : List Expr → Expr → Option (List Expr)
  toTangent : List Expr → Expr → Option (List Expr)

namespace Formulas

/-- The motion that leads from `a` to `b`. -/
def between (formulas : Formulas) (a b : List Expr) : Option (List Expr) := do
  formulas.compose (← formulas.inverse a) b

/-- The element reached from `a` along a tangent vector. -/
def retract (formulas : Formulas) (a vec : List Expr) (epsilon : Expr) :
    Option (List Expr) := do
  formulas.compose a (← formulas.fromTangent vec epsilon)

/-- The tangent vector along which `a` reaches `b`. -/
def localCoordinates (formulas : Formulas) (a b : List Expr) (epsilon : Expr) :
    Option (List Expr) := do
  formulas.toTangent (← formulas.between a b) epsilon

end Formulas

/-- Move `x` away from zero by a multiple of `epsilon`, in the direction of its sign
and upward from zero, so that it can be divided by. -/
def regularize (x epsilon : Expr) : Expr :=
  x + epsilon * (x.sign + .float 0.5)

end LieScribe
