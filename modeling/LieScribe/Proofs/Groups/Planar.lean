import LieScribe.Proofs.Groups.Rotations

/-!
# The groups of the plane

In exact arithmetic the formulas of the plane compute products and reciprocals of complex
numbers.  So both groups of the plane represent motions with complex rotations, and obey their
laws.
-/

namespace LieScribe

/-! ## Formulas -/

namespace Planar

/-- Two expressions have the parts of a number as their values. -/
structure Denotes {K : Type} [Field K] (arithmetic : Arithmetic K) (bindings : Bindings K)
    (parts : Expr × Expr) (z : Number K) : Prop where
  re : parts.1.Denotes arithmetic bindings z.re
  im : parts.2.Denotes arithmetic bindings z.im

variable {K : Type} [Field K] {arithmetic : Arithmetic K} [arithmetic.Exact]
  {bindings : Bindings K} {c s c' s' : Expr} {z w : Number K}

theorem denotes_product (first : Denotes arithmetic bindings (c, s) z)
    (second : Denotes arithmetic bindings (c', s') w) :
    Denotes arithmetic bindings (product c s c' s') (z * w) where
  re := by
    have re_mul : (z * w).re = z.re * w.re - z.im * w.im := by
      rw [QuadraticAlgebra.re_mul]
      ring
    rw [re_mul]
    exact (first.re.mul second.re).sub (first.im.mul second.im)
  im := by
    have im_mul : (z * w).im = z.im * w.re + z.re * w.im := by
      rw [QuadraticAlgebra.im_mul]
      ring
    rw [im_mul]
    exact (first.im.mul second.re).add (first.re.mul second.im)

theorem denotes_scaled (number : Denotes arithmetic bindings (c, s) z) :
    Denotes arithmetic bindings (scaled c s) ⟨(reciprocal z).re, -(reciprocal z).im⟩ := by
  have scale : (1 / (c.squared + s.squared)).Denotes arithmetic bindings
      (1 / QuadraticAlgebra.norm z) := by
    rw [norm_eq]
    exact Expr.denotes_one.div (number.re.squared.add number.im.squared)
  have scaled_re : (reciprocal z).re = z.re * (1 / QuadraticAlgebra.norm z) := by
    simp [reciprocal, mul_comm]
  have scaled_im : -(reciprocal z).im = z.im * (1 / QuadraticAlgebra.norm z) := by
    simp [reciprocal, mul_comm]
  constructor
  · rw [scaled_re]
    exact number.re.mul scale
  · rw [scaled_im]
    exact number.im.mul scale

theorem denotes_reciprocal (number : Denotes arithmetic bindings (c, s) z) :
    Denotes arithmetic bindings ((scaled c s).1, -(scaled c s).2) (reciprocal z) where
  re := (denotes_scaled number).re
  im := by
    rw [← neg_neg (reciprocal z).im]
    exact (denotes_scaled number).im.neg rfl

/-- The displacement of an inverse, written with the scaled parts. -/
theorem denotes_returned {x y : Expr} (rotation : Denotes arithmetic bindings (c, s) z)
    (displacement : Denotes arithmetic bindings (x, y) w) :
    Denotes arithmetic bindings
      (-((scaled c s).1 * x + (scaled c s).2 * y), (scaled c s).2 * x - (scaled c s).1 * y)
      (-(reciprocal z * w)) := by
  obtain ⟨real, imaginary⟩ := denotes_scaled rotation
  have returned_re : (-(reciprocal z * w)).re =
      -((reciprocal z).re * w.re + -(reciprocal z).im * w.im) := by
    rw [QuadraticAlgebra.re_neg, QuadraticAlgebra.re_mul]
    ring
  have returned_im : (-(reciprocal z * w)).im =
      -(reciprocal z).im * w.re - (reciprocal z).re * w.im := by
    rw [QuadraticAlgebra.im_neg, QuadraticAlgebra.im_mul]
    ring
  constructor
  · rw [returned_re]
    exact ((real.mul displacement.re).add (imaginary.mul displacement.im)).neg rfl
  · rw [returned_im]
    exact (imaginary.mul displacement.re).sub (real.mul displacement.im)

end Planar

/-! ## Elements as motions -/

section Elements

variable {K : Type} [Field K] {arithmetic : Arithmetic K} [arithmetic.Exact]

/-- A rotation stored as cosine and sine. -/
def Rot2.motion (K : Type) [Field K] :
    MotionGroup.rot2.Element K ≃ Motion (Planar.Number K) PUnit where
  toFun a := ⟨⟨a 0, a 1⟩, ⟨⟩⟩
  invFun m := ![m.rotation.re, m.rotation.im]
  left_inv a := by
    funext i
    fin_cases i <;> rfl
  right_inv _ := rfl

theorem Rot2.represents :
    MotionGroup.rot2.Represents arithmetic (Planar.turning K).still (Rot2.motion K) where
  identity := by
    apply MotionGroup.identity_eq_of_denotes
    intro bindings
    exact .cons Expr.denotes_one (.cons Expr.denotes_zero .nil)
  inverse a := by
    apply MotionGroup.inverse_eq_of_denotes
    intro bindings first
    have rotation : Planar.Denotes arithmetic bindings (.element "a" 0, .element "a" 1)
        (Rot2.motion K a).rotation := ⟨first 0, first 1⟩
    have reversed := Planar.denotes_reciprocal rotation
    exact .cons reversed.re (.cons reversed.im .nil)
  compose a b := by
    apply MotionGroup.compose_eq_of_denotes
    intro bindings first second
    have rotation : Planar.Denotes arithmetic bindings (.element "a" 0, .element "a" 1)
        (Rot2.motion K a).rotation := ⟨first 0, first 1⟩
    have next : Planar.Denotes arithmetic bindings (.element "b" 0, .element "b" 1)
        (Rot2.motion K b).rotation := ⟨second 0, second 1⟩
    have product := Planar.denotes_product rotation next
    exact .cons product.re (.cons product.im .nil)

/-- A rotation stored as cosine and sine, and a displacement. -/
def Pose2.motion (K : Type) [Field K] :
    MotionGroup.pose2.Element K ≃ Motion (Planar.Number K) (Planar.Number K) where
  toFun a := ⟨⟨a 0, a 1⟩, ⟨a 2, a 3⟩⟩
  invFun m := ![m.rotation.re, m.rotation.im, m.displacement.re, m.displacement.im]
  left_inv a := by
    funext i
    fin_cases i <;> rfl
  right_inv _ := rfl

theorem Pose2.represents :
    MotionGroup.pose2.Represents arithmetic (Planar.turning K) (Pose2.motion K) where
  identity := by
    apply MotionGroup.identity_eq_of_denotes
    intro bindings
    exact .cons Expr.denotes_one (.cons Expr.denotes_zero
      (.cons Expr.denotes_zero (.cons Expr.denotes_zero .nil)))
  inverse a := by
    apply MotionGroup.inverse_eq_of_denotes
    intro bindings first
    have rotation : Planar.Denotes arithmetic bindings (.element "a" 0, .element "a" 1)
        (Pose2.motion K a).rotation := ⟨first 0, first 1⟩
    have displacement : Planar.Denotes arithmetic bindings (.element "a" 2, .element "a" 3)
        (Pose2.motion K a).displacement := ⟨first 2, first 3⟩
    have reversed := Planar.denotes_reciprocal rotation
    have returned := Planar.denotes_returned rotation displacement
    exact .cons reversed.re (.cons reversed.im (.cons returned.re (.cons returned.im .nil)))
  compose a b := by
    apply MotionGroup.compose_eq_of_denotes
    intro bindings first second
    have rotation : Planar.Denotes arithmetic bindings (.element "a" 0, .element "a" 1)
        (Pose2.motion K a).rotation := ⟨first 0, first 1⟩
    have next : Planar.Denotes arithmetic bindings (.element "b" 0, .element "b" 1)
        (Pose2.motion K b).rotation := ⟨second 0, second 1⟩
    have displacement : Planar.Denotes arithmetic bindings (.element "b" 2, .element "b" 3)
        (Pose2.motion K b).displacement := ⟨second 2, second 3⟩
    have product := Planar.denotes_product rotation next
    have rotated := Planar.denotes_product rotation displacement
    exact .cons product.re (.cons product.im
      (.cons ((first 2).add rotated.re) (.cons ((first 3).add rotated.im) .nil)))

end Elements

/-! ## Laws -/

namespace MotionGroup

/-- Both groups of the plane are motions with complex rotations. -/
theorem exists_represents_of_isPlanar {K : Type} [Field K] (arithmetic : Arithmetic K)
    [arithmetic.Exact] {group : MotionGroup} (planar : group.isPlanar = true) :
    ∃ (V : Type) (_ : AddCommGroup V) (turning : Turning (Planar.Number K) V)
      (motion : group.Element K ≃ Motion (Planar.Number K) V),
      group.Represents arithmetic turning motion ∧ (∀ p q, turning.Splits p q) ∧
        turning.Proper (Planar.nonzero K) ∧
          ∀ a, group.squaredNorm a = QuadraticAlgebra.norm (motion a).rotation := by
  cases group with
  | rot2 =>
      refine ⟨_, _, _, _, Rot2.represents, Turning.splits_still _, Planar.proper_turning.still,
        fun a => ?_⟩
      rw [Planar.norm_eq]
      rfl
  | pose2 =>
      refine ⟨_, _, _, _, Pose2.represents, Planar.splits, Planar.proper_turning, fun a => ?_⟩
      rw [Planar.norm_eq]
      rfl
  | rot3 => cases planar
  | pose3 => cases planar

/-- In exact arithmetic the groups of the plane are groups, whatever the length of their
rotations, as long as what is inverted has a rotation of nonzero length.  Composition is
associative without exception, and it multiplies squared lengths. -/
theorem group_laws_of_isPlanar {K : Type} [Field K] (arithmetic : Arithmetic K)
    [arithmetic.Exact] {group : MotionGroup} (planar : group.isPlanar = true) :
    (∀ a b c, group.compose arithmetic (group.compose arithmetic a b) c =
        group.compose arithmetic a (group.compose arithmetic b c)) ∧
      group.IsGroupOn arithmetic {a | group.squaredNorm a ≠ 0} ∧
      ∀ a b, group.squaredNorm (group.compose arithmetic a b) =
        group.squaredNorm a * group.squaredNorm b := by
  obtain ⟨V, _, turning, motion, represents, splits, isProper, squaredNorm_eq⟩ :=
    exists_represents_of_isPlanar arithmetic planar
  refine ⟨fun a b => represents.compose_assoc (splits _ _), ?_, fun a b => ?_⟩
  · simp only [squaredNorm_eq, ← Planar.mem_nonzero]
    exact represents.isGroupOn isProper
  · rw [squaredNorm_eq, squaredNorm_eq, squaredNorm_eq, represents.rotation_compose, map_mul]

theorem group_laws_pose2 :
    let a : pose2.Element ℝ := ![3, 4, 1, 2]
    let b : pose2.Element ℝ := ![0, 2, 5, -1]
    pose2.squaredNorm a = 25 ∧
      pose2.compose Arithmetic.real a (pose2.inverse Arithmetic.real a) =
        pose2.identity Arithmetic.real ∧
      pose2.compose Arithmetic.real a (pose2.between Arithmetic.real a b) = b ∧
      pose2.squaredNorm (pose2.compose Arithmetic.real a b) = 100 := by
  intro a b
  obtain ⟨-, laws, norms⟩ :=
    group_laws_of_isPlanar Arithmetic.real (show pose2.isPlanar = true from rfl)
  have norm_a : pose2.squaredNorm a = 25 := by
    change (3 : ℝ) ^ 2 + 4 ^ 2 = 25
    norm_num
  have norm_b : pose2.squaredNorm b = 4 := by
    change (0 : ℝ) ^ 2 + 2 ^ 2 = 4
    norm_num
  have nonzero : pose2.squaredNorm a ≠ 0 := by
    rw [norm_a]
    norm_num
  refine ⟨norm_a, laws.compose_inverse a nonzero, laws.compose_between a nonzero b, ?_⟩
  rw [norms, norm_a, norm_b]
  norm_num

end MotionGroup

end LieScribe
