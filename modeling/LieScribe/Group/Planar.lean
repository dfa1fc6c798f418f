import LieScribe.Group.Formulas

/-!
# Groups of the plane

A rotation is a complex number `c + i s`, not necessarily of unit length; a rigid
motion has a displacement besides.
-/

namespace LieScribe

namespace Planar

/-- The product of two complex numbers. -/
def product (c s c' s' : Expr) : Expr × Expr :=
  (c * c' - s * s', s * c' + c * s')

/-- Both parts of a complex number, divided by its squared length. -/
def scaled (c s : Expr) : Expr × Expr :=
  let scale := 1 / (c.squared + s.squared)
  (c * scale, s * scale)

/-- The argument of a complex number. -/
def angle (c s epsilon : Expr) : Expr :=
  .atan2 s (regularize c epsilon)

/-- The vector `(x, y)` multiplied by `c + i s`. -/
def rotate (c s x y : Expr) : Expr × Expr :=
  (c * x - s * y, s * x + c * y)

end Planar

namespace Rot2

def inverse : List Expr → Option (List Expr)
  | c :: s :: _ =>
      let (real, imaginary) := Planar.scaled c s
      some [real, -imaginary]
  | _ => none

def compose : List Expr → List Expr → Option (List Expr)
  | c :: s :: _, c' :: s' :: _ =>
      let (real, imaginary) := Planar.product c s c' s'
      some [real, imaginary]
  | _, _ => none

def fromTangent : List Expr → Expr → Option (List Expr)
  | angle :: _, _ => some [angle.cos, angle.sin]
  | _, _ => none

def toTangent : List Expr → Expr → Option (List Expr)
  | c :: s :: _, epsilon => some [Planar.angle c s epsilon]
  | _, _ => none

/-- Rotations of the plane. -/
def formulas : Formulas :=
  ⟨[1, 0], inverse, compose, fromTangent, toTangent⟩

end Rot2

namespace Pose2

def inverse : List Expr → Option (List Expr)
  | c :: s :: x :: y :: _ =>
      let (real, imaginary) := Planar.scaled c s
      some [real, -imaginary, -(real * x + imaginary * y),
        imaginary * x - real * y]
  | _ => none

def compose : List Expr → List Expr → Option (List Expr)
  | c :: s :: x :: y :: _, c' :: s' :: x' :: y' :: _ =>
      let (rotatedX, rotatedY) := Planar.rotate c s x' y'
      let (real, imaginary) := Planar.product c s c' s'
      some [real, imaginary, x + rotatedX, y + rotatedY]
  | _, _ => none

/-- The displacement of a motion turns while it moves: it is multiplied by
`sin t / t + i (1 - cos t) / t`. -/
def fromTangent : List Expr → Expr → Option (List Expr)
  | x :: y :: angle :: _, epsilon =>
      let safe := regularize angle epsilon
      let (movedX, movedY) :=
        Planar.rotate (safe.sin / safe) ((1 - safe.cos) / safe) x y
      some [angle.cos, angle.sin, movedX, movedY]
  | _, _ => none

/-- The inverse of that factor is `h cot h - i h` at half the angle `h`. -/
def toTangent : List Expr → Expr → Option (List Expr)
  | c :: s :: x :: y :: _, epsilon =>
      let angle := Planar.angle c s epsilon
      let half := angle / 2
      let safe := regularize angle epsilon / 2
      let factor := safe * safe.cos / safe.sin
      some [factor * x + half * y, -half * x + factor * y, angle]
  | _, _ => none

/-- Rigid motions of the plane. -/
def formulas : Formulas :=
  ⟨[1, 0, 0, 0], inverse, compose, fromTangent, toTangent⟩

end Pose2

end LieScribe
