import LieScribe.Proofs.Groups.Planar
import LieScribe.Proofs.Groups.Spatial

/-!
# Tangent vectors

The element along a tangent vector and the tangent vector of an element, in exact arithmetic
and at any regularization.  Without regularization the way there and back leads to the tangent
vector again.
-/

namespace LieScribe

theorem Expr.Denotes.regularize {K : Type} [Field K] [LinearOrder K]
    {arithmetic : Arithmetic K} [arithmetic.ExactOrdered] {bindings : Bindings K}
    {x epsilon : Expr} {u e : K}
    (number : x.Denotes arithmetic bindings u) (amount : epsilon.Denotes arithmetic bindings e) :
    (LieScribe.regularize x epsilon).Denotes arithmetic bindings (regularized u e) :=
  number.add (amount.mul (number.sign.add Expr.denotes_half))

/-! ## The plane -/

theorem Rot2.fromTangent_eq {K : Type} [Field K] {arithmetic : Arithmetic K}
    (vector : MotionGroup.rot2.Tangent K) (epsilon : K) :
    MotionGroup.rot2.fromTangent arithmetic vector epsilon =
      (Rot2.motion K).symm
        ⟨⟨arithmetic.cos (vector 0), arithmetic.sin (vector 0)⟩, ⟨⟩⟩ := by
  apply MotionGroup.fromTangent_eq_of_denotes
  intro bindings tangent amount
  exact .cons (tangent 0).cos (.cons (tangent 0).sin .nil)

section PlanarTangents

variable {K : Type} [Field K] [LinearOrder K] {arithmetic : Arithmetic K}
  [arithmetic.ExactOrdered]

theorem Rot2.toTangent_eq (m : Motion (Planar.Number K) PUnit) (epsilon : K) :
    MotionGroup.rot2.toTangent arithmetic ((Rot2.motion K).symm m) epsilon =
      ![arithmetic.atan2 m.rotation.im (regularized m.rotation.re epsilon)] := by
  apply MotionGroup.toTangent_eq_of_denotes
  intro bindings first amount
  exact .cons (.atan2 (first 1) ((first 0).regularize amount)) .nil

theorem Pose2.fromTangent_eq (vector : MotionGroup.pose2.Tangent K) (epsilon : K) :
    MotionGroup.pose2.fromTangent arithmetic vector epsilon =
      (Pose2.motion K).symm ⟨⟨arithmetic.cos (vector 2), arithmetic.sin (vector 2)⟩,
        Planar.drift arithmetic (regularized (vector 2) epsilon) * ⟨vector 0, vector 1⟩⟩ := by
  apply MotionGroup.fromTangent_eq_of_denotes
  intro bindings tangent amount
  have safe := (tangent 2).regularize amount
  have factor : Planar.Denotes arithmetic bindings
      ((regularize (.element "vec" 2) (.named "epsilon")).sin /
          regularize (.element "vec" 2) (.named "epsilon"),
        (1 - (regularize (.element "vec" 2) (.named "epsilon")).cos) /
          regularize (.element "vec" 2) (.named "epsilon"))
      (Planar.drift arithmetic (regularized (vector 2) epsilon)) :=
    ⟨safe.sin.div safe, (Expr.denotes_one.sub safe.cos).div safe⟩
  have displacement : Planar.Denotes arithmetic bindings
      (.element "vec" 0, .element "vec" 1) ⟨vector 0, vector 1⟩ := ⟨tangent 0, tangent 1⟩
  have moved := Planar.denotes_product factor displacement
  exact .cons (tangent 2).cos (.cons (tangent 2).sin (.cons moved.re (.cons moved.im .nil)))

theorem Pose2.toTangent_eq (m : Motion (Planar.Number K) (Planar.Number K)) (epsilon : K) :
    MotionGroup.pose2.toTangent arithmetic ((Pose2.motion K).symm m) epsilon =
      let angle := arithmetic.atan2 m.rotation.im (regularized m.rotation.re epsilon)
      let moved := Planar.undrift arithmetic angle (regularized angle epsilon / 2) * m.displacement
      ![moved.re, moved.im, angle] := by
  apply MotionGroup.toTangent_eq_of_denotes
  intro bindings first amount
  have angle := Expr.Denotes.atan2 (first 1) ((first 0).regularize amount)
  have half := angle.div Expr.denotes_two
  have safe := (angle.regularize amount).div Expr.denotes_two
  have factor := (safe.mul safe.cos).div safe.sin
  simp only [Planar.undrift_mul]
  exact .cons ((factor.mul (first 2)).add (half.mul (first 3)))
    (.cons (((half.neg rfl).mul (first 2)).add (factor.mul (first 3))) (.cons angle .nil))

theorem Rot2.toTangent_fromTangent (vector : MotionGroup.rot2.Tangent K)
    (recovers : arithmetic.atan2 (arithmetic.sin (vector 0)) (arithmetic.cos (vector 0)) =
      vector 0) :
    MotionGroup.rot2.toTangent arithmetic
      (MotionGroup.rot2.fromTangent arithmetic vector 0) 0 = vector := by
  rw [Rot2.fromTangent_eq, Rot2.toTangent_eq, regularized_zero]
  funext i
  fin_cases i
  exact recovers

theorem Pose2.toTangent_fromTangent [IsStrictOrderedRing K] {arithmetic : Arithmetic K}
    [arithmetic.Trigonometric] (vector : MotionGroup.pose2.Tangent K) (nonzero : vector 2 ≠ 0)
    (sine : arithmetic.sin (vector 2 / 2) ≠ 0)
    (recovers : arithmetic.atan2 (arithmetic.sin (vector 2)) (arithmetic.cos (vector 2)) =
      vector 2) :
    MotionGroup.pose2.toTangent arithmetic
      (MotionGroup.pose2.fromTangent arithmetic vector 0) 0 = vector := by
  rw [Pose2.fromTangent_eq, Pose2.toTangent_eq]
  simp only [regularized_zero, recovers, ← mul_assoc,
    Planar.undrift_mul_drift nonzero sine, one_mul]
  funext i
  fin_cases i <;> rfl

end PlanarTangents

/-! ## Space -/

section SpatialTangents

variable {K : Type} [Field K] [LinearOrder K] {arithmetic : Arithmetic K}
  [arithmetic.ExactOrdered]

theorem QuaternionExpr.denotes_norm {bindings : Bindings K} {x y z : Expr} {v : Fin 3 → K}
    (first : x.Denotes arithmetic bindings (v 0)) (second : y.Denotes arithmetic bindings (v 1))
    (third : z.Denotes arithmetic bindings (v 2)) :
    (QuaternionExpr.norm [x, y, z]).Denotes arithmetic bindings
      (Spatial.length arithmetic v) := by
  rw [Spatial.length_eq_sqrt]
  exact (first.squared.sum_three second.squared third.squared).sqrt

theorem QuaternionExpr.denotes_exponential {bindings : Bindings K} {x y z epsilon : Expr}
    {v : Fin 3 → K} {e : K} (first : x.Denotes arithmetic bindings (v 0))
    (second : y.Denotes arithmetic bindings (v 1)) (third : z.Denotes arithmetic bindings (v 2))
    (amount : epsilon.Denotes arithmetic bindings e) :
    let p := Spatial.exponential arithmetic v e
    List.Forall₂ (Expr.Denotes arithmetic bindings)
      (QuaternionExpr.exponential [x, y, z] epsilon) [p.imI, p.imJ, p.imK, p.re] := by
  have angle := (QuaternionExpr.denotes_norm first second third).regularize amount
  have half := angle.div Expr.denotes_two
  have scale := half.sin.div angle
  exact .cons (scale.mul first) (.cons (scale.mul second) (.cons (scale.mul third)
    (.cons half.cos .nil)))

theorem QuaternionExpr.denotes_logarithm {bindings : Bindings K} {q : QuaternionExpr}
    {epsilon : Expr} {p : Quaternion K} {e : K} (rotation : q.Denotes arithmetic bindings p)
    (amount : epsilon.Denotes arithmetic bindings e) :
    let v := Spatial.logarithm arithmetic p e
    List.Forall₂ (Expr.Denotes arithmetic bindings) (q.logarithm epsilon) [v 0, v 1, v 2] := by
  have sense := (rotation.w.sign.add Expr.denotes_half).sign
  have size : (QuaternionExpr.norm [q.x, q.y, q.z]).Denotes arithmetic bindings
      (Spatial.length arithmetic (Spatial.vectorPart p)) :=
    QuaternionExpr.denotes_norm rotation.x rotation.y rotation.z
  have angle := Expr.denotes_two.mul (size.atan2 ((sense.mul rotation.w).regularize amount))
  have scale := (angle.div (size.regularize amount)).mul sense
  exact .cons (scale.mul rotation.x) (.cons (scale.mul rotation.y) (.cons (scale.mul rotation.z)
    .nil))

theorem Rot3.fromTangent_eq (vector : MotionGroup.rot3.Tangent K) (epsilon : K) :
    MotionGroup.rot3.fromTangent arithmetic vector epsilon =
      (Rot3.motion K).symm
        ⟨Spatial.exponential arithmetic ![vector 0, vector 1, vector 2] epsilon, ⟨⟩⟩ := by
  apply MotionGroup.fromTangent_eq_of_denotes
  intro bindings tangent amount
  exact QuaternionExpr.denotes_exponential (v := ![vector 0, vector 1, vector 2])
    (tangent 0) (tangent 1) (tangent 2) amount

theorem Rot3.toTangent_eq (m : Motion (Quaternion K) PUnit) (epsilon : K) :
    MotionGroup.rot3.toTangent arithmetic ((Rot3.motion K).symm m) epsilon =
      let v := Spatial.logarithm arithmetic m.rotation epsilon
      ![v 0, v 1, v 2] := by
  apply MotionGroup.toTangent_eq_of_denotes
  intro bindings first amount
  have rotation : (QuaternionExpr.stored "a").Denotes arithmetic bindings m.rotation :=
    ⟨first 0, first 1, first 2, first 3⟩
  exact QuaternionExpr.denotes_logarithm rotation amount

theorem Pose3.fromTangent_eq (vector : MotionGroup.pose3.Tangent K) (epsilon : K) :
    MotionGroup.pose3.fromTangent arithmetic vector epsilon =
      (Pose3.motion K).symm
        ⟨Spatial.exponential arithmetic ![vector 0, vector 1, vector 2] epsilon,
          ![vector 3, vector 4, vector 5]⟩ := by
  apply MotionGroup.fromTangent_eq_of_denotes
  intro bindings tangent amount
  have rotation := QuaternionExpr.denotes_exponential (v := ![vector 0, vector 1, vector 2])
    (tangent 0) (tangent 1) (tangent 2) amount
  exact List.rel_append rotation
    (.cons (tangent 3) (.cons (tangent 4) (.cons (tangent 5) .nil)))

theorem Pose3.toTangent_eq (m : Motion (Quaternion K) (Fin 3 → K)) (epsilon : K) :
    MotionGroup.pose3.toTangent arithmetic ((Pose3.motion K).symm m) epsilon =
      let v := Spatial.logarithm arithmetic m.rotation epsilon
      ![v 0, v 1, v 2, m.displacement 0, m.displacement 1, m.displacement 2] := by
  apply MotionGroup.toTangent_eq_of_denotes
  intro bindings first amount
  have rotation : (QuaternionExpr.stored "a").Denotes arithmetic bindings m.rotation :=
    ⟨first 0, first 1, first 2, first 3⟩
  exact List.rel_append (QuaternionExpr.denotes_logarithm rotation amount)
    (.cons (first 4) (.cons (first 5) (.cons (first 6) .nil)))

theorem Rot3.toTangent_fromTangent [IsStrictOrderedRing K] {arithmetic : Arithmetic K}
    [arithmetic.Trigonometric] (vector : MotionGroup.rot3.Tangent K) {n : K}
    (size : Spatial.length arithmetic ![vector 0, vector 1, vector 2] = n) (positive : 0 < n)
    (sine : 0 < arithmetic.sin (n / 2)) (cosine : 0 < arithmetic.cos (n / 2))
    (recovers : arithmetic.atan2 (arithmetic.sin (n / 2)) (arithmetic.cos (n / 2)) = n / 2) :
    MotionGroup.rot3.toTangent arithmetic
      (MotionGroup.rot3.fromTangent arithmetic vector 0) 0 = vector := by
  subst size
  rw [Rot3.fromTangent_eq, Rot3.toTangent_eq,
    Spatial.logarithm_exponential positive sine cosine recovers]
  funext i
  fin_cases i <;> rfl

theorem Pose3.toTangent_fromTangent [IsStrictOrderedRing K] {arithmetic : Arithmetic K}
    [arithmetic.Trigonometric] (vector : MotionGroup.pose3.Tangent K) {n : K}
    (size : Spatial.length arithmetic ![vector 0, vector 1, vector 2] = n) (positive : 0 < n)
    (sine : 0 < arithmetic.sin (n / 2)) (cosine : 0 < arithmetic.cos (n / 2))
    (recovers : arithmetic.atan2 (arithmetic.sin (n / 2)) (arithmetic.cos (n / 2)) = n / 2) :
    MotionGroup.pose3.toTangent arithmetic
      (MotionGroup.pose3.fromTangent arithmetic vector 0) 0 = vector := by
  subst size
  rw [Pose3.fromTangent_eq, Pose3.toTangent_eq,
    Spatial.logarithm_exponential positive sine cosine recovers]
  funext i
  fin_cases i <;> rfl

end SpatialTangents

/-! ## Round trips -/

namespace MotionGroup

variable {K : Type} [Field K] [LinearOrder K] [IsStrictOrderedRing K]

/-- The angle through which a tangent vector turns.  In space it is the length of the rotation
vector. -/
def turningAngle (arithmetic : Arithmetic K) : (group : MotionGroup) → group.Tangent K → K
  | .rot2, vector => vector 0
  | .pose2, vector => vector 2
  | .rot3, vector | .pose3, vector =>
      arithmetic.sqrt (vector 0 ^ 2 + vector 1 ^ 2 + vector 2 ^ 2)

/-- Without regularization the tangent vector of the element along a tangent vector is that
vector, if the angle is recovered from its sine and cosine: the whole angle in the plane, where
half of it must have a sine, and half the angle in space, where sine and cosine must be
positive. -/
theorem toTangent_fromTangent_zero (arithmetic : Arithmetic K) [arithmetic.Trigonometric]
    {group : MotionGroup} (vector : group.Tangent K) :
    let angle := group.turningAngle arithmetic vector
    let half := angle / 2
    (group.isPlanar = true → angle ≠ 0 → arithmetic.sin half ≠ 0 →
        arithmetic.atan2 (arithmetic.sin angle) (arithmetic.cos angle) = angle →
          group.toTangent arithmetic (group.fromTangent arithmetic vector 0) 0 = vector) ∧
      (group.isPlanar = false → 0 < angle → 0 < arithmetic.sin half → 0 < arithmetic.cos half →
        arithmetic.atan2 (arithmetic.sin half) (arithmetic.cos half) = half →
          group.toTangent arithmetic (group.fromTangent arithmetic vector 0) 0 = vector) := by
  intro angle half
  cases group with
  | rot2 => exact ⟨fun _ _ _ => Rot2.toTangent_fromTangent vector, nofun⟩
  | pose2 => exact ⟨fun _ => Pose2.toTangent_fromTangent vector, nofun⟩
  | rot3 => exact ⟨nofun, fun _ => Rot3.toTangent_fromTangent vector (Spatial.length_eq_sqrt _ _)⟩
  | pose3 => exact ⟨nofun, fun _ => Pose3.toTangent_fromTangent vector (Spatial.length_eq_sqrt _ _)⟩

theorem toTangent_fromTangent_one_radian :
    let flat : pose2.Tangent ℝ := ![3, -2, 1]
    let screw : pose3.Tangent ℝ := ![0, 0, 1, 4, 5, 6]
    pose2.toTangent Arithmetic.real (pose2.fromTangent Arithmetic.real flat 0) 0 = flat ∧
      pose3.toTangent Arithmetic.real (pose3.fromTangent Arithmetic.real screw 0) 0 = screw := by
  intro flat screw
  have aboveThree := Real.pi_gt_three
  have flatAngle : pose2.turningAngle Arithmetic.real flat = 1 := rfl
  have screwAngle : pose3.turningAngle Arithmetic.real screw = 1 := by
    change Real.sqrt ((0 : ℝ) ^ 2 + 0 ^ 2 + 1 ^ 2) = 1
    norm_num
  have sine : 0 < Arithmetic.real.sin (1 / 2) :=
    Real.sin_pos_of_pos_of_lt_pi (by norm_num) (by linarith)
  have cosine : 0 < Arithmetic.real.cos (1 / 2) :=
    Real.cos_pos_of_mem_Ioo ⟨by linarith, by linarith⟩
  obtain ⟨planar, -⟩ := toTangent_fromTangent_zero Arithmetic.real flat
  obtain ⟨-, spatial⟩ := toTangent_fromTangent_zero Arithmetic.real screw
  rw [flatAngle] at planar
  rw [screwAngle] at spatial
  constructor
  · exact planar rfl one_ne_zero sine.ne'
      (Arithmetic.real_atan2_sin_cos (by linarith) (by linarith))
  · exact spatial rfl one_pos sine cosine
      (Arithmetic.real_atan2_sin_cos (by linarith) (by linarith))

end MotionGroup

end LieScribe
