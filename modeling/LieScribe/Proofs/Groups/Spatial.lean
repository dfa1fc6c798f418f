import LieScribe.Proofs.Groups.Rotations

/-!
# The groups of space

In exact arithmetic the formulas of space compute products and conjugates of quaternions and
the matrices by which they turn vectors.  So both groups of space represent motions with
quaternions for rotations, and obey their laws where those are of unit length.
-/

namespace LieScribe

/-! ## Formulas -/

/-- The expressions of a quaternion have its coordinates as their values. -/
structure QuaternionExpr.Denotes {K : Type} [Field K] (arithmetic : Arithmetic K)
    (bindings : Bindings K) (q : QuaternionExpr) (p : Quaternion K) : Prop where
  x : q.x.Denotes arithmetic bindings p.imI
  y : q.y.Denotes arithmetic bindings p.imJ
  z : q.z.Denotes arithmetic bindings p.imK
  w : q.w.Denotes arithmetic bindings p.re

/-- The expressions of a matrix have its entries as their values. -/
def MatrixExpr.Denotes {K : Type} (arithmetic : Arithmetic K) (bindings : Bindings K)
    (matrix : MatrixExpr) (M : Matrix (Fin 3) (Fin 3) K) : Prop :=
  ∀ i j, (matrix.entry i j).Denotes arithmetic bindings (M i j)

section Formulas

variable {K : Type} [Field K] {arithmetic : Arithmetic K} [arithmetic.Exact]
  {bindings : Bindings K}

theorem QuaternionExpr.denotes_product {a b : QuaternionExpr} {p q : Quaternion K}
    (first : a.Denotes arithmetic bindings p) (second : b.Denotes arithmetic bindings q) :
    (a.product b).Denotes arithmetic bindings (p * q) where
  x := by
    rw [Quaternion.imI_mul]
    exact (((first.w.mul second.x).add (first.x.mul second.w)).add
      (first.y.mul second.z)).sub (first.z.mul second.y)
  y := by
    rw [Quaternion.imJ_mul]
    exact (((first.w.mul second.y).sub (first.x.mul second.z)).add
      (first.y.mul second.w)).add (first.z.mul second.x)
  z := by
    rw [Quaternion.imK_mul]
    exact (((first.w.mul second.z).add (first.x.mul second.y)).sub
      (first.y.mul second.x)).add (first.z.mul second.w)
  w := by
    rw [Quaternion.re_mul]
    exact (((first.w.mul second.w).sub (first.x.mul second.x)).sub
      (first.y.mul second.y)).sub (first.z.mul second.z)

theorem QuaternionExpr.denotes_conjugate {q : QuaternionExpr} {p : Quaternion K}
    (rotation : q.Denotes arithmetic bindings p)
    (noLiterals : ∀ expr ∈ [q.x, q.y, q.z], expr.literal? = none) :
    q.conjugate.Denotes arithmetic bindings (star p) where
  x := rotation.x.neg (noLiterals q.x (by simp))
  y := rotation.y.neg (noLiterals q.y (by simp))
  z := rotation.z.neg (noLiterals q.z (by simp))
  w := by
    rw [Quaternion.re_star]
    exact rotation.w

theorem MatrixExpr.denotes_ofQuaternion {q : QuaternionExpr} {p : Quaternion K}
    (rotation : q.Denotes arithmetic bindings p) :
    (MatrixExpr.ofQuaternion q).Denotes arithmetic bindings (Spatial.rotationMatrix p) := by
  have twoX := Expr.denotes_two.mul rotation.x
  have twoY := Expr.denotes_two.mul rotation.y
  have twoZ := Expr.denotes_two.mul rotation.z
  intro i j
  fin_cases i <;> fin_cases j
  · exact (Expr.denotes_one.sub (twoY.mul rotation.y)).sub (twoZ.mul rotation.z)
  · exact (twoX.mul rotation.y).sub (twoZ.mul rotation.w)
  · exact (twoX.mul rotation.z).add (twoY.mul rotation.w)
  · exact (twoX.mul rotation.y).add (twoZ.mul rotation.w)
  · exact (Expr.denotes_one.sub (twoX.mul rotation.x)).sub (twoZ.mul rotation.z)
  · exact (twoY.mul rotation.z).sub (twoX.mul rotation.w)
  · exact (twoX.mul rotation.z).sub (twoY.mul rotation.w)
  · exact (twoY.mul rotation.z).add (twoX.mul rotation.w)
  · exact (Expr.denotes_one.sub (twoX.mul rotation.x)).sub (twoY.mul rotation.y)

/-- The image of a vector, row by row. -/
theorem MatrixExpr.denotes_row {matrix : MatrixExpr} {M : Matrix (Fin 3) (Fin 3) K}
    (entries : matrix.Denotes arithmetic bindings M) {x y z : Expr} {v : Fin 3 → K}
    (first : x.Denotes arithmetic bindings (v 0)) (second : y.Denotes arithmetic bindings (v 1))
    (third : z.Denotes arithmetic bindings (v 2)) (i : Fin 3) :
    (matrix.entry i 0 * x + matrix.entry i 1 * y + matrix.entry i 2 * z).Denotes arithmetic
      bindings (M.mulVec v i) := by
  rw [Spatial.mulVec_apply]
  exact (((entries i 0).mul first).add ((entries i 1).mul second)).add ((entries i 2).mul third)

end Formulas

/-! ## Elements as motions -/

section Elements

variable {K : Type} [Field K] {arithmetic : Arithmetic K} [arithmetic.Exact]

/-- The quaternion at the head of an array. -/
def QuaternionExpr.stored (array : String) : QuaternionExpr :=
  ⟨.element array 0, .element array 1, .element array 2, .element array 3⟩

theorem QuaternionExpr.literal?_stored {array : String} :
    ∀ expr ∈ [(stored array).x, (stored array).y, (stored array).z], expr.literal? = none := by
  simp [stored, Expr.element, Expr.literal?]

/-- A quaternion stored with its scalar part last. -/
def Rot3.motion (K : Type) [Field K] :
    MotionGroup.rot3.Element K ≃ Motion (Quaternion K) PUnit where
  toFun a := ⟨⟨a 3, a 0, a 1, a 2⟩, ⟨⟩⟩
  invFun m := ![m.rotation.imI, m.rotation.imJ, m.rotation.imK, m.rotation.re]
  left_inv a := by
    funext i
    fin_cases i <;> rfl
  right_inv _ := rfl

theorem Rot3.represents :
    MotionGroup.rot3.Represents arithmetic (Spatial.turning K).still (Rot3.motion K) where
  identity := by
    apply MotionGroup.identity_eq_of_denotes
    intro bindings
    exact .cons Expr.denotes_zero (.cons Expr.denotes_zero
      (.cons Expr.denotes_zero (.cons Expr.denotes_one .nil)))
  inverse a := by
    apply MotionGroup.inverse_eq_of_denotes
    intro bindings first
    have rotation : (QuaternionExpr.stored "a").Denotes arithmetic bindings
        (Rot3.motion K a).rotation := ⟨first 0, first 1, first 2, first 3⟩
    have reversed := QuaternionExpr.denotes_conjugate rotation QuaternionExpr.literal?_stored
    exact .cons reversed.x (.cons reversed.y (.cons reversed.z (.cons reversed.w .nil)))
  compose a b := by
    apply MotionGroup.compose_eq_of_denotes
    intro bindings first second
    have rotation : (QuaternionExpr.stored "a").Denotes arithmetic bindings
        (Rot3.motion K a).rotation := ⟨first 0, first 1, first 2, first 3⟩
    have next : (QuaternionExpr.stored "b").Denotes arithmetic bindings
        (Rot3.motion K b).rotation := ⟨second 0, second 1, second 2, second 3⟩
    have product := QuaternionExpr.denotes_product rotation next
    exact .cons product.x (.cons product.y (.cons product.z (.cons product.w .nil)))

/-- A quaternion stored with its scalar part last, and a displacement. -/
def Pose3.motion (K : Type) [Field K] :
    MotionGroup.pose3.Element K ≃ Motion (Quaternion K) (Fin 3 → K) where
  toFun a := ⟨⟨a 3, a 0, a 1, a 2⟩, ![a 4, a 5, a 6]⟩
  invFun m := Fin.append
    ![m.rotation.imI, m.rotation.imJ, m.rotation.imK, m.rotation.re] m.displacement
  left_inv a := by
    funext i
    fin_cases i <;> rfl
  right_inv m := by
    ext i
    · rfl
    · rfl
    · rfl
    · rfl
    · fin_cases i <;> rfl

theorem Pose3.represents :
    MotionGroup.pose3.Represents arithmetic (Spatial.turning K) (Pose3.motion K) where
  identity := by
    apply MotionGroup.identity_eq_of_denotes
    intro bindings
    exact .cons Expr.denotes_zero (.cons Expr.denotes_zero
      (.cons Expr.denotes_zero (.cons Expr.denotes_one (.cons Expr.denotes_zero
        (.cons Expr.denotes_zero (.cons Expr.denotes_zero .nil))))))
  inverse a := by
    apply MotionGroup.inverse_eq_of_denotes
    intro bindings first
    have rotation : (QuaternionExpr.stored "a").Denotes arithmetic bindings
        (Pose3.motion K a).rotation := ⟨first 0, first 1, first 2, first 3⟩
    have reversed := QuaternionExpr.denotes_conjugate rotation QuaternionExpr.literal?_stored
    have matrix : (MatrixExpr.ofQuaternion (.stored "a")).transpose.Denotes arithmetic bindings
        (Spatial.rotationMatrix (star (Pose3.motion K a).rotation)) := by
      rw [Spatial.rotationMatrix_star]
      exact fun i j => MatrixExpr.denotes_ofQuaternion rotation j i
    have moved (i : Fin 3) := (MatrixExpr.denotes_row matrix
      (v := (Pose3.motion K a).displacement) (first 4) (first 5) (first 6) i).neg rfl
    exact .cons reversed.x (.cons reversed.y (.cons reversed.z (.cons reversed.w
      (.cons (moved 0) (.cons (moved 1) (.cons (moved 2) .nil))))))
  compose a b := by
    apply MotionGroup.compose_eq_of_denotes
    intro bindings first second
    have rotation : (QuaternionExpr.stored "a").Denotes arithmetic bindings
        (Pose3.motion K a).rotation := ⟨first 0, first 1, first 2, first 3⟩
    have next : (QuaternionExpr.stored "b").Denotes arithmetic bindings
        (Pose3.motion K b).rotation := ⟨second 0, second 1, second 2, second 3⟩
    have product := QuaternionExpr.denotes_product rotation next
    have moved := MatrixExpr.denotes_row (MatrixExpr.denotes_ofQuaternion rotation)
      (v := (Pose3.motion K b).displacement) (second 4) (second 5) (second 6)
    exact .cons product.x (.cons product.y (.cons product.z (.cons product.w
      (.cons ((first 4).add (moved 0)) (.cons ((first 5).add (moved 1))
        (.cons ((first 6).add (moved 2)) .nil))))))

end Elements

/-! ## Laws -/

namespace MotionGroup

/-- Both groups of space are motions with quaternions for rotations. -/
theorem exists_represents_of_not_isPlanar {K : Type} [Field K] (arithmetic : Arithmetic K)
    [arithmetic.Exact] {group : MotionGroup} (spatial : group.isPlanar = false) :
    ∃ (V : Type) (_ : AddCommGroup V) (turning : Turning (Quaternion K) V)
      (motion : group.Element K ≃ Motion (Quaternion K) V),
      group.Represents arithmetic turning motion ∧ turning.Proper (Spatial.units K) ∧
        (∀ p, turning.reverse p = star p) ∧
          ∀ a, group.squaredNorm a = Quaternion.normSq (motion a).rotation := by
  -- The scalar part is the last of the stored coordinates and the first of a quaternion.
  have norm_eq (p : Quaternion K) :
      p.imI ^ 2 + p.imJ ^ 2 + p.imK ^ 2 + p.re ^ 2 = Quaternion.normSq p := by
    rw [Quaternion.normSq_def']
    ring
  cases group with
  | rot2 => cases spatial
  | pose2 => cases spatial
  | rot3 =>
      exact ⟨_, _, _, _, Rot3.represents, Spatial.proper_turning.still, fun _ => rfl,
        fun a => norm_eq (Rot3.motion K a).rotation⟩
  | pose3 =>
      exact ⟨_, _, _, _, Pose3.represents, Spatial.proper_turning, fun _ => rfl,
        fun a => norm_eq (Pose3.motion K a).rotation⟩

/-- In exact arithmetic the elements of the groups of space whose quaternions have unit length
form a group.  Lengths are multiplied by compositions and kept by inverses whatever they are,
and rotations compose associatively whatever their lengths.  A composition of motions turns the
second displacement by the matrix of the first rotation; the matrix of a unit quaternion `p`
turns `v` into the vector part of `p v p*`. -/
theorem group_laws_on_units {K : Type} [Field K] (arithmetic : Arithmetic K)
    [arithmetic.Exact] :
    (∀ group : MotionGroup, group.isPlanar = false →
      (∀ a b, group.squaredNorm (group.compose arithmetic a b) =
          group.squaredNorm a * group.squaredNorm b) ∧
        (∀ a, group.squaredNorm (group.inverse arithmetic a) = group.squaredNorm a) ∧
        group.IsGroupOn arithmetic {a | group.squaredNorm a = 1}) ∧
      (∀ a b c, rot3.compose arithmetic (rot3.compose arithmetic a b) c =
        rot3.compose arithmetic a (rot3.compose arithmetic b c)) ∧
      (∀ a b, (Pose3.motion K (pose3.compose arithmetic a b)).displacement =
        (Pose3.motion K a).displacement +
          (Spatial.rotationMatrix (Pose3.motion K a).rotation).mulVec
            (Pose3.motion K b).displacement) ∧
      (∀ bindings (q : QuaternionExpr) (p : Quaternion K), q.Denotes arithmetic bindings p →
        (MatrixExpr.ofQuaternion q).Denotes arithmetic bindings (Spatial.rotationMatrix p)) ∧
      ∀ p : Quaternion K, Quaternion.normSq p = 1 → ∀ v,
        (Spatial.rotationMatrix p).mulVec v =
          Spatial.vectorPart (p * Spatial.ofParts 0 v * star p) := by
  refine ⟨fun group spatial => ?_, fun a b => ?_, fun a b => ?_, fun bindings q p => ?_,
    fun p unit v => ?_⟩
  · obtain ⟨V, _, turning, motion, represents, isProper, reverse_eq, squaredNorm_eq⟩ :=
      exists_represents_of_not_isPlanar arithmetic spatial
    refine ⟨fun a b => ?_, fun a => ?_, ?_⟩
    · rw [squaredNorm_eq, squaredNorm_eq, squaredNorm_eq, represents.rotation_compose, map_mul]
    · rw [squaredNorm_eq, squaredNorm_eq, represents.rotation_inverse, reverse_eq,
        Quaternion.normSq_star]
    · simp only [squaredNorm_eq, ← Spatial.mem_units]
      exact represents.isGroupOn isProper
  · exact Rot3.represents.compose_assoc (Turning.splits_still _ _ _)
  · rw [Pose3.represents.compose, Equiv.apply_symm_apply]
    rfl
  · exact MatrixExpr.denotes_ofQuaternion
  · rw [← Spatial.ofParts_mulVec_of_normSq unit, Spatial.vectorPart_ofParts]

/-- A third of a turn about the diagonal and another motion with a unit quaternion. -/
theorem group_laws_pose3 :
    let a : pose3.Element ℝ := ![1 / 2, 1 / 2, 1 / 2, 1 / 2, 1, 2, 3]
    let b : pose3.Element ℝ := ![3 / 5, 0, 0, -4 / 5, 0, 7, -1]
    pose3.squaredNorm a = 1 ∧ pose3.squaredNorm b = 1 ∧
      pose3.squaredNorm (pose3.between Arithmetic.real a b) = 1 ∧
      pose3.compose Arithmetic.real a (pose3.inverse Arithmetic.real a) =
        pose3.identity Arithmetic.real ∧
      pose3.compose Arithmetic.real a (pose3.between Arithmetic.real a b) = b := by
  intro a b
  obtain ⟨-, -, laws⟩ :=
    (group_laws_on_units Arithmetic.real).1 pose3 rfl
  have norm_a : pose3.squaredNorm a = 1 := by
    change (1 / 2 : ℝ) ^ 2 + (1 / 2) ^ 2 + (1 / 2) ^ 2 + (1 / 2) ^ 2 = 1
    norm_num
  have norm_b : pose3.squaredNorm b = 1 := by
    change (3 / 5 : ℝ) ^ 2 + 0 ^ 2 + 0 ^ 2 + (-4 / 5) ^ 2 = 1
    norm_num
  exact ⟨norm_a, norm_b, laws.between_mem a norm_a b norm_b, laws.compose_inverse a norm_a,
    laws.compose_between a norm_a b⟩

end MotionGroup

end LieScribe
