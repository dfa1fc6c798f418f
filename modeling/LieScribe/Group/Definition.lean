import LieScribe.Group.Kind
import LieScribe.Group.Planar
import LieScribe.Group.Spatial
import LieScribe.Listing

/-!
# Definitions of group operations

Each operation of each group as outputs in the symbols of its arguments.
-/

namespace LieScribe

namespace MotionGroup

def formulas : MotionGroup → Formulas
  | .rot2 => Rot2.formulas
  | .rot3 => Rot3.formulas
  | .pose2 => Pose2.formulas
  | .pose3 => Pose3.formulas

end MotionGroup

/-- The arguments of a group operation.  An operation looks at those it takes. -/
structure GroupArguments where
  first : List Expr
  second : List Expr
  tangent : List Expr
  epsilon : Expr

namespace GroupArguments

/-- Arguments whose coordinates are symbols. -/
def symbolic (group : MotionGroup) : GroupArguments where
  first := Expr.array GroupArgument.first.name group.storageDim
  second := Expr.array GroupArgument.second.name group.storageDim
  tangent := Expr.array GroupArgument.tangent.name group.tangentDim
  epsilon := .named GroupArgument.epsilon.name

end GroupArguments

/-- An operation of a group with its inputs and outputs. -/
structure GroupDefinition where
  group : MotionGroup
  operation : GroupOperation
  inputs : List Symbol
  outputs : List Expr

namespace MotionGroup

/-- Apply an operation to arguments, unless one of them has too few coordinates. -/
def image? (group : MotionGroup) (operation : GroupOperation)
    (arguments : GroupArguments) : Option (List Expr) :=
  let formulas := group.formulas
  match operation with
  | .identity => some formulas.identity
  | .inverse => formulas.inverse arguments.first
  | .compose => formulas.compose arguments.first arguments.second
  | .between => formulas.between arguments.first arguments.second
  | .fromTangent => formulas.fromTangent arguments.tangent arguments.epsilon
  | .toTangent => formulas.toTangent arguments.first arguments.epsilon
  | .retract =>
      formulas.retract arguments.first arguments.tangent arguments.epsilon
  | .localCoordinates =>
      formulas.localCoordinates arguments.first arguments.second
        arguments.epsilon

/-- Symbolic arguments have all the coordinates that an operation needs. -/
theorem image?_symbolic_isSome (group : MotionGroup) (operation : GroupOperation) :
    (group.image? operation (GroupArguments.symbolic group)).isSome = true := by
  cases group <;> cases operation <;> rfl

/-- The outputs of an operation in the symbols of its arguments. -/
def outputs (group : MotionGroup) (operation : GroupOperation) : List Expr :=
  (group.image? operation (GroupArguments.symbolic group)).get
    (image?_symbolic_isSome group operation)

/-- The inputs of an operation, in the order of its arguments. -/
def inputs (group : MotionGroup) (operation : GroupOperation) : List Symbol :=
  operation.arguments.flatMap (GroupArgument.symbols group)

def define (group : MotionGroup) (operation : GroupOperation) : GroupDefinition :=
  ⟨group, operation, group.inputs operation, group.outputs operation⟩

end MotionGroup

/-- The request for a listing of a group operation. -/
def GroupDefinition.request (definition : GroupDefinition) (target : Target)
    (sharing : Bool) (naming : Naming) : ListingRequest :=
  ⟨definition.inputs, definition.outputs, target, sharing, naming⟩

end LieScribe
