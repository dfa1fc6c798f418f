import LieScribe.Group.Formulas

/-!
# Groups of space

A rotation is a quaternion with its scalar part last; a rigid motion has a
displacement besides.  Tangent vectors of motions hold a rotation vector and a
displacement.
-/

namespace LieScribe

structure QuaternionExpr where
  x : Expr
  y : Expr
  z : Expr
  w : Expr

namespace QuaternionExpr

def toList (q : QuaternionExpr) : List Expr :=
  [q.x, q.y, q.z, q.w]

/-- The product of two quaternions. -/
def product (a b : QuaternionExpr) : QuaternionExpr where
  x := a.w * b.x + a.x * b.w + a.y * b.z - a.z * b.y
  y := a.w * b.y - a.x * b.z + a.y * b.w + a.z * b.x
  z := a.w * b.z + a.x * b.y - a.y * b.x + a.z * b.w
  w := a.w * b.w - a.x * b.x - a.y * b.y - a.z * b.z

def conjugate (q : QuaternionExpr) : QuaternionExpr :=
  ⟨-q.x, -q.y, -q.z, q.w⟩

/-- The length of a vector. -/
def norm (coordinates : List Expr) : Expr :=
  (Expr.sum (coordinates.map Expr.squared)).sqrt

/-- The rotation about a vector by its length. -/
def exponential (rotation : List Expr) (epsilon : Expr) : List Expr :=
  let angle := regularize (norm rotation) epsilon
  let half := angle / 2
  let scale := half.sin / angle
  rotation.map (scale * ·) ++ [half.cos]

/-- The rotation vector of a quaternion.  Of the two quaternions of a rotation the
one with the nonnegative scalar part is used, so the angle is at most half a
turn. -/
def logarithm (q : QuaternionExpr) (epsilon : Expr) : List Expr :=
  let sign := (q.w.sign + .float 0.5).sign
  let length := norm [q.x, q.y, q.z]
  let angle := 2 * Expr.atan2 length (regularize (sign * q.w) epsilon)
  let scale := angle / regularize length epsilon * sign
  [q.x, q.y, q.z].map (scale * ·)

end QuaternionExpr

/-- A matrix of three rows. -/
structure MatrixExpr where
  entry : Fin 3 → Fin 3 → Expr

namespace MatrixExpr

/-- The rotation of a unit quaternion. -/
def ofQuaternion (q : QuaternionExpr) : MatrixExpr :=
  let twoX := 2 * q.x
  let twoY := 2 * q.y
  let twoZ := 2 * q.z
  let xx := twoX * q.x
  let yy := twoY * q.y
  let zz := twoZ * q.z
  let xy := twoX * q.y
  let xz := twoX * q.z
  let yz := twoY * q.z
  let xw := twoX * q.w
  let yw := twoY * q.w
  let zw := twoZ * q.w
  ⟨fun row column =>
    match row, column with
    | 0, 0 => 1 - yy - zz
    | 0, 1 => xy - zw
    | 0, 2 => xz + yw
    | 1, 0 => xy + zw
    | 1, 1 => 1 - xx - zz
    | 1, 2 => yz - xw
    | 2, 0 => xz - yw
    | 2, 1 => yz + xw
    | 2, 2 => 1 - xx - yy⟩

def transpose (matrix : MatrixExpr) : MatrixExpr :=
  ⟨fun row column => matrix.entry column row⟩

/-- The image of a vector. -/
def rotate (matrix : MatrixExpr) (x y z : Expr) : List Expr :=
  [0, 1, 2].map fun row =>
    matrix.entry row 0 * x + matrix.entry row 1 * y + matrix.entry row 2 * z

end MatrixExpr

namespace Rot3

def inverse : List Expr → Option (List Expr)
  | x :: y :: z :: w :: _ => some (QuaternionExpr.mk x y z w).conjugate.toList
  | _ => none

def compose : List Expr → List Expr → Option (List Expr)
  | x :: y :: z :: w :: _, x' :: y' :: z' :: w' :: _ =>
      some (QuaternionExpr.product ⟨x, y, z, w⟩ ⟨x', y', z', w'⟩).toList
  | _, _ => none

def fromTangent (rotation : List Expr) (epsilon : Expr) : Option (List Expr) :=
  some (QuaternionExpr.exponential rotation epsilon)

def toTangent : List Expr → Expr → Option (List Expr)
  | x :: y :: z :: w :: _, epsilon =>
      some (QuaternionExpr.logarithm ⟨x, y, z, w⟩ epsilon)
  | _, _ => none

/-- Rotations of space. -/
def formulas : Formulas :=
  ⟨[0, 0, 0, 1], inverse, compose, fromTangent, toTangent⟩

end Rot3

namespace Pose3

def inverse : List Expr → Option (List Expr)
  | x :: y :: z :: w :: tx :: ty :: tz :: _ =>
      let q := QuaternionExpr.mk x y z w
      let moved := (MatrixExpr.ofQuaternion q).transpose.rotate tx ty tz
      some (q.conjugate.toList ++ moved.map (- ·))
  | _ => none

def compose : List Expr → List Expr → Option (List Expr)
  | x :: y :: z :: w :: displacement,
    x' :: y' :: z' :: w' :: tx :: ty :: tz :: _ =>
      let q := QuaternionExpr.mk x y z w
      let moved := (MatrixExpr.ofQuaternion q).rotate tx ty tz
      some ((q.product ⟨x', y', z', w'⟩).toList ++
        List.zipWith (· + ·) displacement moved)
  | _, _ => none

def fromTangent : List Expr → Expr → Option (List Expr)
  | x :: y :: z :: displacement, epsilon =>
      some (QuaternionExpr.exponential [x, y, z] epsilon ++ displacement)
  | _, _ => none

def toTangent : List Expr → Expr → Option (List Expr)
  | x :: y :: z :: w :: displacement, epsilon =>
      some (QuaternionExpr.logarithm ⟨x, y, z, w⟩ epsilon ++ displacement)
  | _, _ => none

/-- Rigid motions of space. -/
def formulas : Formulas :=
  ⟨[0, 0, 0, 1, 0, 0, 0], inverse, compose, fromTangent, toTangent⟩

end Pose3

end LieScribe
