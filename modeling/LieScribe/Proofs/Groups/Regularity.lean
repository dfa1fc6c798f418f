import LieScribe.Proofs.FirstFault
import LieScribe.Proofs.Groups.Tangents

/-!
# Regular tangent vectors of space

With a positive regularization the formulas of space have no singular points: whatever the
quaternion, its length included, every divisor is positive and so is the abscissa of every angle.
The tangent vector of an element does not tell its quaternion from the opposite one, unless both
turn by half a turn.
-/

namespace LieScribe

/-! ## Signs -/

section Signs

variable {K : Type} [Field K] [LinearOrder K] [IsStrictOrderedRing K]

theorem regularized_pos {x epsilon : K} (nonneg : 0 ≤ x) (positive : 0 < epsilon) :
    0 < regularized x epsilon := by
  rw [regularized]
  rcases nonneg.eq_or_lt with rfl | above
  · rw [sign_zero, SignType.coe_zero, zero_add, zero_add]
    positivity
  · rw [sign_pos above, SignType.coe_one]
    positivity

namespace Spatial

theorem sense_eq (w : K) : sense w = if 0 ≤ w then 1 else -1 := by
  rcases lt_trichotomy w 0 with negative | rfl | positive
  · have below : (-1 : K) + 1 / 2 < 0 := by norm_num
    rw [if_neg (not_le.mpr negative), sense, sign_neg negative, SignType.coe_neg_one,
      sign_neg below, SignType.coe_neg_one]
  · have above : 0 < (0 : K) + 1 / 2 := by norm_num
    rw [if_pos le_rfl, sense, sign_zero, SignType.coe_zero, sign_pos above, SignType.coe_one]
  · rw [if_pos positive.le, sense_of_pos positive]

theorem sense_mul_self (w : K) : sense w * w = |w| := by
  rw [sense_eq]
  split
  · next nonneg => rw [one_mul, abs_of_nonneg nonneg]
  · next negative => rw [neg_one_mul, abs_of_neg (not_le.mp negative)]

theorem sense_neg {w : K} (nonzero : w ≠ 0) : sense (-w) = -sense w := by
  rw [sense_eq, sense_eq]
  rcases lt_or_gt_of_ne nonzero with negative | positive
  · rw [if_pos (neg_nonneg.mpr negative.le), if_neg (not_le.mpr negative), neg_neg]
  · rw [if_neg (not_le.mpr (neg_neg_of_pos positive)), if_pos positive.le]

variable (arithmetic : Arithmetic K)

omit [LinearOrder K] [IsStrictOrderedRing K] in
theorem length_neg (v : Fin 3 → K) : length arithmetic (-v) = length arithmetic v := by
  simp only [length, Pi.neg_apply, neg_sq]

omit [LinearOrder K] [IsStrictOrderedRing K] in
theorem vectorPart_neg (p : Quaternion K) : vectorPart (-p) = -vectorPart p := by
  funext i
  fin_cases i <;> rfl

/-- The logarithm takes the shorter way round. -/
theorem logarithm_eq (p : Quaternion K) (epsilon : K) :
    logarithm arithmetic p epsilon =
      (2 * arithmetic.atan2 (length arithmetic (vectorPart p)) (regularized |p.re| epsilon) /
        regularized (length arithmetic (vectorPart p)) epsilon * sense p.re) • vectorPart p := by
  rw [logarithm, sense_mul_self]

theorem logarithm_neg {p : Quaternion K} (nonzero : p.re ≠ 0) (epsilon : K) :
    logarithm arithmetic (-p) epsilon = logarithm arithmetic p epsilon := by
  rw [logarithm_eq, logarithm_eq, vectorPart_neg, length_neg, Quaternion.re_neg, abs_neg,
    sense_neg nonzero, mul_neg, neg_smul, smul_neg, neg_neg]

end Spatial

end Signs

/-! ## Divisors and abscissas -/

/-- The expression has a positive value. -/
def Expr.DenotesPositive {K : Type} [Field K] [LinearOrder K] (arithmetic : Arithmetic K)
    (bindings : Bindings K) (expr : Expr) : Prop :=
  ∃ value, expr.Denotes arithmetic bindings value ∧ 0 < value

/-- The second of two arguments of an operation. -/
def Expr.second? (operation : Operation) : Expr → Option Expr
  | .op applied [_, second] => if applied = operation then some second else none
  | _ => none

theorem Expr.mem_seconds {operation : Operation} {first second : Expr} {exprs : List Expr}
    (occurs : .op operation [first, second] ∈ nodesOf exprs) :
    second ∈ (nodesOf exprs).filterMap (Expr.second? operation) :=
  List.mem_filterMap.mpr ⟨_, occurs, if_pos rfl⟩

namespace QuaternionExpr

/-- One if the scalar part is not negative, minus one if it is. -/
def sense (q : QuaternionExpr) : Expr :=
  (q.w.sign + .float 0.5).sign

section Values

variable {K : Type} [Field K] [LinearOrder K] {arithmetic : Arithmetic K}
  [arithmetic.ExactOrdered] {bindings : Bindings K} {q : QuaternionExpr} {p : Quaternion K}
  {epsilon : Expr} {e : K}

theorem denotes_sense (rotation : q.Denotes arithmetic bindings p) :
    q.sense.Denotes arithmetic bindings (Spatial.sense p.re) :=
  (rotation.w.sign.add Expr.denotes_half).sign

variable [IsStrictOrderedRing K]

theorem denotesPositive_abscissa (rotation : q.Denotes arithmetic bindings p)
    (amount : epsilon.Denotes arithmetic bindings e) (positive : 0 < e) :
    (regularize (q.sense * q.w) epsilon).DenotesPositive arithmetic bindings := by
  refine ⟨_, ((denotes_sense rotation).mul rotation.w).regularize amount, ?_⟩
  rw [Spatial.sense_mul_self]
  exact regularized_pos (abs_nonneg _) positive

theorem denotesPositive_norm (sqrt_nonneg : ∀ y, 0 ≤ y → 0 ≤ arithmetic.sqrt y)
    {x y z : Expr} {v : Fin 3 → K} (first : x.Denotes arithmetic bindings (v 0))
    (second : y.Denotes arithmetic bindings (v 1)) (third : z.Denotes arithmetic bindings (v 2))
    (amount : epsilon.Denotes arithmetic bindings e) (positive : 0 < e) :
    (regularize (norm [x, y, z]) epsilon).DenotesPositive arithmetic bindings :=
  ⟨_, (denotes_norm first second third).regularize amount,
    regularized_pos (sqrt_nonneg _ (by positivity)) positive⟩

end Values

end QuaternionExpr

namespace MotionGroup

/-! ## The outputs -/

section Outputs

variable {group : MotionGroup}

/-- The sense of the quaternion is a factor of the rotation vector. -/
theorem exists_outputs_toTangent (spatial : group.isPlanar = false) :
    ∃ scale displacement, group.outputs .toTangent =
      [.element "a" 0, .element "a" 1, .element "a" 2].map
        (scale * (QuaternionExpr.stored "a").sense * ·) ++ displacement := by
  cases group with
  | rot2 => cases spatial
  | pose2 => cases spatial
  | rot3 => exact ⟨_, [], rfl⟩
  | pose3 => exact ⟨_, [.element "a" 4, .element "a" 5, .element "a" 6], rfl⟩

theorem abscissas_toTangent (spatial : group.isPlanar = false) :
    (Expr.nodesOf (group.outputs .toTangent)).filterMap (Expr.second? .atan2) =
      List.replicate 3 (regularize ((QuaternionExpr.stored "a").sense * .element "a" 3)
        (.named "epsilon")) := by
  cases group with
  | rot2 => cases spatial
  | pose2 => cases spatial
  | rot3 => rfl
  | pose3 => rfl

theorem divisors_toTangent (spatial : group.isPlanar = false) :
    (Expr.nodesOf (group.outputs .toTangent)).filterMap (Expr.second? .div) =
      List.replicate 3 (regularize (QuaternionExpr.norm
        [.element "a" 0, .element "a" 1, .element "a" 2]) (.named "epsilon")) := by
  cases group with
  | rot2 => cases spatial
  | pose2 => cases spatial
  | rot3 => rfl
  | pose3 => rfl

/-- The angle divides, and it is halved. -/
theorem mem_divisors_fromTangent (spatial : group.isPlanar = false) {divisor : Expr}
    (divides : divisor ∈
      (Expr.nodesOf (group.outputs .fromTangent)).filterMap (Expr.second? .div)) :
    divisor = 2 ∨ divisor = regularize (QuaternionExpr.norm
      [.element "vec" 0, .element "vec" 1, .element "vec" 2]) (.named "epsilon") := by
  have divisors : (Expr.nodesOf (group.outputs .fromTangent)).filterMap (Expr.second? .div) =
      let angle := regularize (QuaternionExpr.norm
        [.element "vec" 0, .element "vec" 1, .element "vec" 2]) (.named "epsilon")
      [angle, 2, angle, 2, angle, 2, 2] := by
    cases group with
    | rot2 => cases spatial
    | pose2 => cases spatial
    | rot3 => rfl
    | pose3 => rfl
  rw [divisors] at divides
  simp only [List.mem_cons, List.not_mem_nil, or_false] at divides
  tauto

end Outputs

/-! ## Values at the inputs -/

section Inputs

variable {K : Type} {group : MotionGroup} (arithmetic : Arithmetic K)

theorem denotes_bound_toTangent (a : group.Element K) (epsilon : K) :
    let bindings := group.bound .toTangent [List.ofFn a, [epsilon]].flatten
    (∀ i : Fin group.storageDim, (Expr.element "a" i).Denotes arithmetic bindings (a i)) ∧
      (Expr.named "epsilon").Denotes arithmetic bindings epsilon := by
  rcases (group.fits_toTangent a epsilon).denotes arithmetic with
    _ | ⟨first, _ | ⟨_ | ⟨amount, -⟩, -⟩⟩
  exact ⟨denotes_element rfl first, amount⟩

theorem denotes_bound_fromTangent (vector : group.Tangent K) (epsilon : K) :
    let bindings := group.bound .fromTangent [List.ofFn vector, [epsilon]].flatten
    (∀ i : Fin group.tangentDim, (Expr.element "vec" i).Denotes arithmetic bindings (vector i)) ∧
      (Expr.named "epsilon").Denotes arithmetic bindings epsilon := by
  rcases (group.fits_fromTangent vector epsilon).denotes arithmetic with
    _ | ⟨tangent, _ | ⟨_ | ⟨amount, -⟩, -⟩⟩
  exact ⟨denotes_element rfl tangent, amount⟩

theorem denotes_stored [Field K] (spatial : group.isPlanar = false) (a : group.Element K)
    (epsilon : K) :
    (QuaternionExpr.stored "a").Denotes arithmetic
      (group.bound .toTangent [List.ofFn a, [epsilon]].flatten)
      (Spatial.ofParts (a 3) ![a 0, a 1, a 2]) := by
  obtain ⟨first, -⟩ := denotes_bound_toTangent arithmetic a epsilon
  cases group with
  | rot2 => cases spatial
  | pose2 => cases spatial
  | rot3 => exact ⟨first 0, first 1, first 2, first 3⟩
  | pose3 => exact ⟨first 0, first 1, first 2, first 3⟩

end Inputs

section Positive

variable {K : Type} [Field K] [LinearOrder K] [IsStrictOrderedRing K] {group : MotionGroup}
  {arithmetic : Arithmetic K} [arithmetic.ExactOrdered] {epsilon : K}

theorem abscissa_pos (spatial : group.isPlanar = false) (positive : 0 < epsilon)
    (a : group.Element K) {ordinate abscissa : Expr}
    (occurs : .op .atan2 [ordinate, abscissa] ∈ Expr.nodesOf (group.outputs .toTangent)) :
    abscissa.DenotesPositive arithmetic
      (group.bound .toTangent [List.ofFn a, [epsilon]].flatten) := by
  have isAbscissa := Expr.mem_seconds occurs
  rw [abscissas_toTangent spatial] at isAbscissa
  rw [List.eq_of_mem_replicate isAbscissa]
  exact QuaternionExpr.denotesPositive_abscissa (denotes_stored arithmetic spatial a epsilon)
    (denotes_bound_toTangent arithmetic a epsilon).2 positive

theorem divisor_toTangent_pos (spatial : group.isPlanar = false)
    (sqrt_nonneg : ∀ y, 0 ≤ y → 0 ≤ arithmetic.sqrt y) (positive : 0 < epsilon)
    (a : group.Element K) {numerator divisor : Expr}
    (occurs : .op .div [numerator, divisor] ∈ Expr.nodesOf (group.outputs .toTangent)) :
    divisor.DenotesPositive arithmetic
      (group.bound .toTangent [List.ofFn a, [epsilon]].flatten) := by
  have divides := Expr.mem_seconds occurs
  have rotation := denotes_stored arithmetic spatial a epsilon
  rw [divisors_toTangent spatial] at divides
  rw [List.eq_of_mem_replicate divides]
  exact QuaternionExpr.denotesPositive_norm sqrt_nonneg (v := ![a 0, a 1, a 2]) rotation.x
    rotation.y rotation.z (denotes_bound_toTangent arithmetic a epsilon).2 positive

theorem divisor_fromTangent_pos (spatial : group.isPlanar = false)
    (sqrt_nonneg : ∀ y, 0 ≤ y → 0 ≤ arithmetic.sqrt y) (positive : 0 < epsilon)
    (vector : group.Tangent K) {numerator divisor : Expr}
    (occurs : .op .div [numerator, divisor] ∈ Expr.nodesOf (group.outputs .fromTangent)) :
    divisor.DenotesPositive arithmetic
      (group.bound .fromTangent [List.ofFn vector, [epsilon]].flatten) := by
  obtain ⟨tangent, amount⟩ := denotes_bound_fromTangent arithmetic vector epsilon
  rcases mem_divisors_fromTangent spatial (Expr.mem_seconds occurs) with rfl | rfl
  · exact ⟨2, Expr.denotes_two, two_pos⟩
  · cases group with
    | rot2 => cases spatial
    | pose2 => cases spatial
    | rot3 =>
        exact QuaternionExpr.denotesPositive_norm sqrt_nonneg
          (v := ![vector 0, vector 1, vector 2]) (tangent 0) (tangent 1) (tangent 2) amount positive
    | pose3 =>
        exact QuaternionExpr.denotesPositive_norm sqrt_nonneg
          (v := ![vector 0, vector 1, vector 2]) (tangent 0) (tangent 1) (tangent 2) amount positive

end Positive

/-! ## The tangent vector -/

/-- The element with the opposite quaternion. -/
def opposite {K : Type} [Neg K] (group : MotionGroup) (a : group.Element K) : group.Element K :=
  fun i => if i.val < 4 then -a i else a i

theorem opposite_rot3 {K : Type} [Field K] (a : rot3.Element K) :
    rot3.opposite a = (Rot3.motion K).symm ⟨-(Rot3.motion K a).rotation, ⟨⟩⟩ := by
  funext i
  fin_cases i <;> rfl

theorem opposite_pose3 {K : Type} [Field K] (a : pose3.Element K) :
    pose3.opposite a = (Pose3.motion K).symm
      ⟨-(Pose3.motion K a).rotation, (Pose3.motion K a).displacement⟩ := by
  funext i
  fin_cases i <;> rfl

section Tangents

variable {K : Type} [Field K] [LinearOrder K] {group : MotionGroup} (arithmetic : Arithmetic K)
  [arithmetic.ExactOrdered]

theorem toTangent_rot3 (a : rot3.Element K) (epsilon : K) :
    rot3.toTangent arithmetic a epsilon =
      let v := Spatial.logarithm arithmetic (Spatial.ofParts (a 3) ![a 0, a 1, a 2]) epsilon
      ![v 0, v 1, v 2] := by
  rw [← (Rot3.motion K).symm_apply_apply a, Rot3.toTangent_eq]
  rfl

theorem toTangent_pose3 (a : pose3.Element K) (epsilon : K) :
    pose3.toTangent arithmetic a epsilon =
      let v := Spatial.logarithm arithmetic (Spatial.ofParts (a 3) ![a 0, a 1, a 2]) epsilon
      ![v 0, v 1, v 2, a 4, a 5, a 6] := by
  rw [← (Pose3.motion K).symm_apply_apply a, Pose3.toTangent_eq]
  rfl

/-- In both groups of space the rotation vector comes first. -/
theorem toTangent_rotation (spatial : group.isPlanar = false) (a : group.Element K)
    (epsilon : K) :
    let v := Spatial.logarithm arithmetic (Spatial.ofParts (a 3) ![a 0, a 1, a 2]) epsilon
    group.toTangent arithmetic a epsilon 0 = v 0 ∧
      group.toTangent arithmetic a epsilon 1 = v 1 ∧
      group.toTangent arithmetic a epsilon 2 = v 2 := by
  cases group with
  | rot2 => cases spatial
  | pose2 => cases spatial
  | rot3 =>
      rw [toTangent_rot3]
      exact ⟨rfl, rfl, rfl⟩
  | pose3 =>
      rw [toTangent_pose3]
      exact ⟨rfl, rfl, rfl⟩

variable [IsStrictOrderedRing K]

theorem toTangent_opposite (spatial : group.isPlanar = false) (a : group.Element K)
    (nonzero : a 3 ≠ 0) (epsilon : K) :
    group.toTangent arithmetic (group.opposite a) epsilon =
      group.toTangent arithmetic a epsilon := by
  cases group with
  | rot2 => cases spatial
  | pose2 => cases spatial
  | rot3 =>
      rw [opposite_rot3, Rot3.toTangent_eq, Spatial.logarithm_neg _ nonzero, ← Rot3.toTangent_eq]
      exact congrArg (rot3.toTangent arithmetic · epsilon) ((Rot3.motion K).symm_apply_apply a)
  | pose3 =>
      rw [opposite_pose3, Pose3.toTangent_eq, Spatial.logarithm_neg _ nonzero,
        ← Pose3.toTangent_eq]
      exact congrArg (pose3.toTangent arithmetic · epsilon)
        ((Pose3.motion K).symm_apply_apply a)

end Tangents

/-- In exact arithmetic over an ordered field, with a square root that is not negative and a
positive regularization, every divisor of the tangent vectors and elements of space is positive,
and so is the abscissa of every angle.  The rotation vector of a quaternion of any length points
along its vector part if its scalar part is not negative and the other way if it is, so opposite
quaternions have the same one unless their scalar part is zero.  Displacements are kept. -/
theorem spatial_tangents_regular {K : Type} [Field K] [LinearOrder K] [IsStrictOrderedRing K]
    (arithmetic : Arithmetic K) [arithmetic.ExactOrdered]
    (sqrt_nonneg : ∀ y, 0 ≤ y → 0 ≤ arithmetic.sqrt y) {epsilon : K} (positive : 0 < epsilon) :
    (∀ group : MotionGroup, group.isPlanar = false →
      (∀ a : group.Element K,
        let bindings := group.bound .toTangent [List.ofFn a, [epsilon]].flatten
        let nodes := Expr.nodesOf (group.outputs .toTangent)
        let factor := (QuaternionExpr.stored "a").sense
        let sense : K := if 0 ≤ a 3 then 1 else -1
        let size := arithmetic.sqrt (a 0 ^ 2 + a 1 ^ 2 + a 2 ^ 2)
        let scale := 2 * arithmetic.atan2 size (regularized |a 3| epsilon) /
          regularized size epsilon * sense
        factor.Denotes arithmetic bindings sense ∧
        (∃ rest displacement, group.outputs .toTangent =
          [.element "a" 0, .element "a" 1, .element "a" 2].map (rest * factor * ·) ++
            displacement) ∧
        (∀ ordinate abscissa, .op .atan2 [ordinate, abscissa] ∈ nodes →
          abscissa.DenotesPositive arithmetic bindings) ∧
        (∀ numerator divisor, .op .div [numerator, divisor] ∈ nodes →
          divisor.DenotesPositive arithmetic bindings) ∧
        (group.toTangent arithmetic a epsilon 0 = scale * a 0 ∧
          group.toTangent arithmetic a epsilon 1 = scale * a 1 ∧
          group.toTangent arithmetic a epsilon 2 = scale * a 2) ∧
        (a 3 ≠ 0 → group.toTangent arithmetic (group.opposite a) epsilon =
          group.toTangent arithmetic a epsilon)) ∧
      ∀ (vector : group.Tangent K) (numerator divisor : Expr),
        .op .div [numerator, divisor] ∈ Expr.nodesOf (group.outputs .fromTangent) →
          divisor.DenotesPositive arithmetic
            (group.bound .fromTangent [List.ofFn vector, [epsilon]].flatten)) ∧
    (∀ a : pose3.Element K, pose3.toTangent arithmetic a epsilon 3 = a 4 ∧
      pose3.toTangent arithmetic a epsilon 4 = a 5 ∧
      pose3.toTangent arithmetic a epsilon 5 = a 6) ∧
    ∀ vector : pose3.Tangent K, pose3.fromTangent arithmetic vector epsilon 4 = vector 3 ∧
      pose3.fromTangent arithmetic vector epsilon 5 = vector 4 ∧
      pose3.fromTangent arithmetic vector epsilon 6 = vector 5 := by
  refine ⟨fun group spatial => ⟨fun a => ?_, fun vector numerator divisor =>
    divisor_fromTangent_pos spatial sqrt_nonneg positive vector⟩, fun a => ?_, fun vector => ?_⟩
  · intro bindings nodes factor sense size scale
    refine ⟨?_, exists_outputs_toTangent spatial, fun ordinate abscissa =>
      abscissa_pos spatial positive a, fun numerator divisor =>
      divisor_toTangent_pos spatial sqrt_nonneg positive a, ?_, fun nonzero =>
      toTangent_opposite arithmetic spatial a nonzero epsilon⟩
    · have denotes :=
        QuaternionExpr.denotes_sense (denotes_stored arithmetic spatial a epsilon)
      rwa [Spatial.sense_eq] at denotes
    · have rotation := toTangent_rotation arithmetic spatial a epsilon
      simp only [Spatial.logarithm_eq, Spatial.length_eq_sqrt, Spatial.sense_eq,
        Spatial.vectorPart_ofParts, Spatial.re_ofParts] at rotation
      exact rotation
  · rw [toTangent_pose3]
    exact ⟨rfl, rfl, rfl⟩
  · rw [Pose3.fromTangent_eq]
    exact ⟨rfl, rfl, rfl⟩

/-- A quaternion that is neither of unit length nor on the side of the nonnegative ones. -/
theorem spatial_tangents_regular_pose3 :
    let a : pose3.Element ℝ := ![1, 2, 2, -1 / 2, 4, 5, 6]
    (∀ y, 0 ≤ y → 0 ≤ Arithmetic.real.sqrt y) ∧ (0 : ℝ) < 1 / 10 ∧ a 3 ≠ 0 ∧
      (QuaternionExpr.stored "a").sense.Denotes Arithmetic.real
        (pose3.bound .toTangent [List.ofFn a, [1 / 10]].flatten) (-1) ∧
      pose3.toTangent Arithmetic.real (pose3.opposite a) (1 / 10) =
        pose3.toTangent Arithmetic.real a (1 / 10) := by
  intro a
  have sqrt_nonneg : ∀ y, 0 ≤ y → 0 ≤ Arithmetic.real.sqrt y := fun y _ => Real.sqrt_nonneg y
  have positive : (0 : ℝ) < 1 / 10 := by norm_num
  have negative : a 3 < 0 := show (-1 / 2 : ℝ) < 0 by norm_num
  obtain ⟨⟨sense, -, -, -, -, same⟩, -⟩ :=
    (spatial_tangents_regular Arithmetic.real sqrt_nonneg positive).1 pose3 rfl |>.imp_left (· a)
  rw [if_neg (not_le.mpr negative)] at sense
  exact ⟨sqrt_nonneg, positive, negative.ne, sense, same negative.ne⟩

end MotionGroup

end LieScribe
