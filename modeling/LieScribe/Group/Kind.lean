import LieScribe.Symbol

/-!
# Transformation groups and their operations

Rotations and rigid motions of the plane and of space.  An element of a group is
stored as a vector of coordinates: a planar rotation by cosine and sine, a spatial
one by a quaternion with the scalar part last, and a rigid motion by its rotation
followed by its displacement.  Tangent vectors have coordinates of their own.
-/

namespace LieScribe

inductive MotionGroup where
  | rot2
  | rot3
  | pose2
  | pose3
  deriving DecidableEq, Repr

namespace MotionGroup

def all : List MotionGroup :=
  [.rot2, .rot3, .pose2, .pose3]

def name : MotionGroup → String
  | .rot2 => "rot2"
  | .rot3 => "rot3"
  | .pose2 => "pose2"
  | .pose3 => "pose3"

/-- The name of the type of elements. -/
def typeName : MotionGroup → String
  | .rot2 => "Rot2"
  | .rot3 => "Rot3"
  | .pose2 => "Pose2"
  | .pose3 => "Pose3"

def ofName? (name : String) : Option MotionGroup :=
  all.find? (·.name == name)

/-- The number of coordinates of an element. -/
def storageDim : MotionGroup → Nat
  | .rot2 => 2
  | .rot3 => 4
  | .pose2 => 4
  | .pose3 => 7

/-- The number of coordinates of a tangent vector. -/
def tangentDim : MotionGroup → Nat
  | .rot2 => 1
  | .rot3 => 3
  | .pose2 => 3
  | .pose3 => 6

end MotionGroup

/-- An argument of a group operation: an element, a second element, a tangent
vector, or the amount by which singular divisors are kept away from zero. -/
inductive GroupArgument where
  | first
  | second
  | tangent
  | epsilon
  deriving DecidableEq, Repr

namespace GroupArgument

def name : GroupArgument → String
  | .first => "a"
  | .second => "b"
  | .tangent => "vec"
  | .epsilon => "epsilon"

/-- The number of coordinates; a scalar has none. -/
def dim? (group : MotionGroup) : GroupArgument → Option Nat
  | .first | .second => some group.storageDim
  | .tangent => some group.tangentDim
  | .epsilon => none

def symbols (group : MotionGroup) (argument : GroupArgument) : List Symbol :=
  match argument.dim? group with
  | some dim => Symbol.array argument.name dim
  | none => [.named argument.name]

end GroupArgument

/-- An operation that every group has. -/
inductive GroupOperation where
  | identity
  | inverse
  | compose
  | between
  | fromTangent
  | toTangent
  | retract
  | localCoordinates
  deriving DecidableEq, Repr

namespace GroupOperation

def all : List GroupOperation :=
  [.identity, .inverse, .compose, .between, .fromTangent, .toTangent, .retract,
    .localCoordinates]

def name : GroupOperation → String
  | .identity => "identity"
  | .inverse => "inverse"
  | .compose => "compose"
  | .between => "between"
  | .fromTangent => "from_tangent"
  | .toTangent => "to_tangent"
  | .retract => "retract"
  | .localCoordinates => "local_coordinates"

/-- The name with capitals in place of underscores. -/
def capitalName : GroupOperation → String
  | .identity => "Identity"
  | .inverse => "Inverse"
  | .compose => "Compose"
  | .between => "Between"
  | .fromTangent => "FromTangent"
  | .toTangent => "ToTangent"
  | .retract => "Retract"
  | .localCoordinates => "LocalCoordinates"

def ofName? (name : String) : Option GroupOperation :=
  all.find? (·.name == name)

def arguments : GroupOperation → List GroupArgument
  | .identity => []
  | .inverse => [.first]
  | .compose | .between => [.first, .second]
  | .fromTangent => [.tangent, .epsilon]
  | .toTangent => [.first, .epsilon]
  | .retract => [.first, .tangent, .epsilon]
  | .localCoordinates => [.first, .second, .epsilon]

/-- Is the result a tangent vector rather than an element? -/
def returnsTangent : GroupOperation → Bool
  | .toTangent | .localCoordinates => true
  | _ => false

end GroupOperation

namespace MotionGroup

/-- The number of coordinates of a result. -/
def outputDim (group : MotionGroup) (operation : GroupOperation) : Nat :=
  if operation.returnsTangent then group.tangentDim else group.storageDim

/-- An operation of a group, written with a dot. -/
def qualified (group : MotionGroup) (operation : GroupOperation) : String :=
  group.name ++ "." ++ operation.name

end MotionGroup

end LieScribe
