import LieScribe.Proofs.Groups.Motions

/-!
# Rotations over a field

Rotations of the plane are complex numbers over a field, of any length, and displacements are
too: a rotation turns a displacement by multiplying it.  The rotation the other way is the
reciprocal, which is an inverse for every number whose squared length is not zero.

Rotations of space are quaternions, and a rotation turns a vector by its matrix.  For a
quaternion `p` of any length the matrix maps a vector `v` to `p v p* + (1 - |p|²) v`, so among
quaternions of unit length products turn vectors like their factors, and the conjugate is the
rotation the other way.

Elementary functions are those of an arithmetic.  A motion of the plane that turns while it
moves multiplies its displacement by the number `drift`; a rotation of space is the quaternion
`exponential` of a rotation vector.  Without regularization the number `undrift` and the
`logarithm` of a quaternion undo them.
-/

namespace LieScribe

/-! ## Regularization -/

section Regularization

variable {K : Type} [Field K] [LinearOrder K]

/-- A number moved away from zero. -/
def regularized (x epsilon : K) : K :=
  x + epsilon * (SignType.sign x + 1 / 2)

theorem regularized_zero (x : K) : regularized x 0 = x := by
  rw [regularized, zero_mul, add_zero]

end Regularization

/-! ## The plane -/

namespace Planar

/-- The complex numbers over a field. -/
abbrev Number (K : Type) [Field K] : Type :=
  QuadraticAlgebra K (-1) 0

variable {K : Type} [Field K]

def reciprocal (z : Number K) : Number K :=
  (QuadraticAlgebra.norm z)⁻¹ • star z

theorem mul_reciprocal {z : Number K} (nonzero : QuadraticAlgebra.norm z ≠ 0) :
    z * reciprocal z = 1 := by
  rw [reciprocal, mul_smul_comm, ← QuadraticAlgebra.algebraMap_norm_eq_mul_star,
    Algebra.smul_def, ← map_mul, inv_mul_cancel₀ nonzero, map_one]

theorem norm_eq (z : Number K) : QuadraticAlgebra.norm z = z.re ^ 2 + z.im ^ 2 := by
  rw [QuadraticAlgebra.norm_def]
  ring

/-- Rotations turn displacements by multiplication. -/
def turning (K : Type) [Field K] : Turning (Number K) (Number K) where
  turn := AddMonoidHom.mulLeft
  reverse := reciprocal
  turn_one := one_mul

theorem splits (p q : Number K) : (turning K).Splits p q :=
  fun vector => mul_assoc p q vector

/-- The numbers with a reciprocal. -/
def nonzero (K : Type) [Field K] : Submonoid (Number K) :=
  (nonZeroDivisors K).comap QuadraticAlgebra.norm

theorem mem_nonzero {z : Number K} : z ∈ nonzero K ↔ QuadraticAlgebra.norm z ≠ 0 := by
  rw [nonzero, Submonoid.mem_comap, mem_nonZeroDivisors_iff_ne_zero]

theorem proper_turning : (turning K).Proper (nonzero K) where
  splits p _ q _ := splits p q
  reverse_mem p member := by
    rw [mem_nonzero] at member ⊢
    have product := congrArg QuadraticAlgebra.norm (mul_reciprocal member)
    rw [map_mul, map_one] at product
    exact right_ne_zero_of_mul_eq_one product
  mul_reverse p member := mul_reciprocal (mem_nonzero.mp member)
  reverse_mul p member := (mul_comm _ p).trans (mul_reciprocal (mem_nonzero.mp member))

section Drift

variable (arithmetic : Arithmetic K)

/-- The number by which a displacement is multiplied on the way through an angle. -/
def drift (angle : K) : Number K :=
  ⟨arithmetic.sin angle / angle, (1 - arithmetic.cos angle) / angle⟩

/-- The number that undoes a drift; `half` is half the angle, kept away from zero. -/
def undrift (angle half : K) : Number K :=
  ⟨half * arithmetic.cos half / arithmetic.sin half, -(angle / 2)⟩

theorem undrift_mul (angle half : K) (w : Number K) :
    undrift arithmetic angle half * w =
      ⟨half * arithmetic.cos half / arithmetic.sin half * w.re + angle / 2 * w.im,
        -(angle / 2) * w.re + half * arithmetic.cos half / arithmetic.sin half * w.im⟩ := by
  ext
  · rw [QuadraticAlgebra.re_mul, undrift]
    ring
  · rw [QuadraticAlgebra.im_mul, undrift]
    ring

theorem undrift_mul_drift [LinearOrder K] [IsStrictOrderedRing K] {arithmetic : Arithmetic K}
    [laws : arithmetic.Trigonometric] {angle : K} (nonzero : angle ≠ 0)
    (sine : arithmetic.sin (angle / 2) ≠ 0) :
    undrift arithmetic angle (angle / 2) * drift arithmetic angle = 1 := by
  have whole : angle = 2 * (angle / 2) := by
    ring
  have sin_angle := laws.sin_two_mul (angle / 2)
  have cos_angle := laws.cos_two_mul (angle / 2)
  have pythagoras := laws.sin_sq_add_cos_sq (angle / 2)
  rw [← whole] at sin_angle cos_angle
  ext
  · rw [QuadraticAlgebra.re_mul, QuadraticAlgebra.re_one, undrift, drift, sin_angle, cos_angle]
    field_simp
    linear_combination pythagoras
  · rw [QuadraticAlgebra.im_mul, QuadraticAlgebra.im_one, undrift, drift, sin_angle, cos_angle]
    field_simp
    linear_combination -arithmetic.cos (angle / 2) * pythagoras

end Drift

end Planar

/-! ## Space -/

namespace Spatial

section Quaternions

variable {K : Type} [Field K]

/-- The quaternion with the given scalar and vector parts. -/
def ofParts (w : K) (v : Fin 3 → K) : Quaternion K :=
  (Quaternion.equivTuple K).symm (Matrix.vecCons w v)

@[simp]
theorem re_ofParts (w : K) (v : Fin 3 → K) : (ofParts w v).re = w := rfl

@[simp]
theorem imI_ofParts (w : K) (v : Fin 3 → K) : (ofParts w v).imI = v 0 := rfl

@[simp]
theorem imJ_ofParts (w : K) (v : Fin 3 → K) : (ofParts w v).imJ = v 1 := rfl

@[simp]
theorem imK_ofParts (w : K) (v : Fin 3 → K) : (ofParts w v).imK = v 2 := rfl

def vectorPart (p : Quaternion K) : Fin 3 → K :=
  ![p.imI, p.imJ, p.imK]

theorem vectorPart_ofParts (w : K) (v : Fin 3 → K) : vectorPart (ofParts w v) = v := by
  funext i
  fin_cases i <;> rfl

/-- The matrix by which a quaternion turns vectors. -/
def rotationMatrix (p : Quaternion K) : Matrix (Fin 3) (Fin 3) K :=
  !![1 - 2 * p.imJ * p.imJ - 2 * p.imK * p.imK, 2 * p.imI * p.imJ - 2 * p.imK * p.re,
      2 * p.imI * p.imK + 2 * p.imJ * p.re;
    2 * p.imI * p.imJ + 2 * p.imK * p.re, 1 - 2 * p.imI * p.imI - 2 * p.imK * p.imK,
      2 * p.imJ * p.imK - 2 * p.imI * p.re;
    2 * p.imI * p.imK - 2 * p.imJ * p.re, 2 * p.imJ * p.imK + 2 * p.imI * p.re,
      1 - 2 * p.imI * p.imI - 2 * p.imJ * p.imJ]

theorem mulVec_apply (M : Matrix (Fin 3) (Fin 3) K) (v : Fin 3 → K) (i : Fin 3) :
    M.mulVec v i = M i 0 * v 0 + M i 1 * v 1 + M i 2 * v 2 := by
  rw [Matrix.mulVec, dotProduct, Fin.sum_univ_three]

theorem rotationMatrix_one : rotationMatrix (1 : Quaternion K) = 1 := by
  ext i j
  fin_cases i <;> fin_cases j <;>
    simp [rotationMatrix, Quaternion.re_one, Quaternion.imI_one, Quaternion.imJ_one,
      Quaternion.imK_one]

theorem rotationMatrix_star (p : Quaternion K) :
    rotationMatrix (star p) = (rotationMatrix p).transpose := by
  ext i j
  fin_cases i <;> fin_cases j <;> simp [rotationMatrix] <;> ring

theorem ofParts_mulVec (p : Quaternion K) (v : Fin 3 → K) :
    ofParts 0 ((rotationMatrix p).mulVec v) =
      p * ofParts 0 v * star p + (1 - Quaternion.normSq p) • ofParts 0 v := by
  ext <;>
    simp only [re_ofParts, imI_ofParts, imJ_ofParts, imK_ofParts, mulVec_apply] <;>
    simp [rotationMatrix, Quaternion.normSq_def'] <;>
    ring

theorem ofParts_mulVec_of_normSq {p : Quaternion K} (unit : Quaternion.normSq p = 1)
    (v : Fin 3 → K) :
    ofParts 0 ((rotationMatrix p).mulVec v) = p * ofParts 0 v * star p := by
  rw [ofParts_mulVec, unit, sub_self, zero_smul, add_zero]

theorem rotationMatrix_mul_mulVec {p q : Quaternion K} (left : Quaternion.normSq p = 1)
    (right : Quaternion.normSq q = 1) (v : Fin 3 → K) :
    (rotationMatrix (p * q)).mulVec v =
      (rotationMatrix p).mulVec ((rotationMatrix q).mulVec v) := by
  have product : Quaternion.normSq (p * q) = 1 := by
    rw [map_mul, left, right, one_mul]
  apply Function.LeftInverse.injective (vectorPart_ofParts 0)
  rw [ofParts_mulVec_of_normSq product, ofParts_mulVec_of_normSq left,
    ofParts_mulVec_of_normSq right, star_mul]
  simp only [mul_assoc]

def turning (K : Type) [Field K] : Turning (Quaternion K) (Fin 3 → K) where
  turn p := (rotationMatrix p).mulVecLin.toAddMonoidHom
  reverse := star
  turn_one v := by
    rw [rotationMatrix_one]
    exact Matrix.one_mulVec v

/-- The quaternions of unit length. -/
def units (K : Type) [Field K] : Submonoid (Quaternion K) :=
  MonoidHom.mker Quaternion.normSq

theorem mem_units {p : Quaternion K} : p ∈ units K ↔ Quaternion.normSq p = 1 :=
  MonoidHom.mem_mker

theorem proper_turning : (turning K).Proper (units K) where
  splits p left q right :=
    rotationMatrix_mul_mulVec (mem_units.mp left) (mem_units.mp right)
  reverse_mem p member := by
    rw [mem_units] at member ⊢
    exact (Quaternion.normSq_star p).trans member
  mul_reverse p member := by
    rw [mem_units] at member
    exact (Quaternion.self_mul_star p).trans (by rw [member, Quaternion.coe_one])
  reverse_mul p member := by
    rw [mem_units] at member
    exact (Quaternion.star_mul_self p).trans (by rw [member, Quaternion.coe_one])

end Quaternions

section Exponential

variable {K : Type} [Field K] (arithmetic : Arithmetic K)

/-- The length of a vector. -/
def length (v : Fin 3 → K) : K :=
  arithmetic.sqrt (∑ i, v i ^ 2)

theorem length_eq_sqrt (v : Fin 3 → K) :
    length arithmetic v = arithmetic.sqrt (v 0 ^ 2 + v 1 ^ 2 + v 2 ^ 2) := by
  rw [length, Fin.sum_univ_three]

variable [LinearOrder K]

/-- The rotation about a vector by its length. -/
def exponential (v : Fin 3 → K) (epsilon : K) : Quaternion K :=
  let angle := regularized (length arithmetic v) epsilon
  ofParts (arithmetic.cos (angle / 2)) ((arithmetic.sin (angle / 2) / angle) • v)

/-- Minus one for a negative number and one for any other. -/
def sense (w : K) : K :=
  SignType.sign ((SignType.sign w : K) + 1 / 2)

/-- The rotation vector of a quaternion. -/
def logarithm (p : Quaternion K) (epsilon : K) : Fin 3 → K :=
  let size := length arithmetic (vectorPart p)
  let angle := 2 * arithmetic.atan2 size (regularized (sense p.re * p.re) epsilon)
  (angle / regularized size epsilon * sense p.re) • vectorPart p

variable [IsStrictOrderedRing K]

theorem sense_of_pos {w : K} (positive : 0 < w) : sense w = 1 := by
  have above : 0 < (1 : K) + 1 / 2 := by
    norm_num
  rw [sense, sign_pos positive, SignType.coe_one, sign_pos above, SignType.coe_one]

variable {arithmetic} [laws : arithmetic.Trigonometric]

/-- A vector that is stretched by a nonnegative factor. -/
theorem length_smul {scale : K} (nonneg : 0 ≤ scale) (v : Fin 3 → K) :
    length arithmetic (scale • v) = scale * length arithmetic v := by
  have length_nonneg (v : Fin 3 → K) : 0 ≤ length arithmetic v :=
    laws.sqrt_nonneg _ (by positivity)
  have length_sq (v : Fin 3 → K) : length arithmetic v ^ 2 = ∑ i, v i ^ 2 :=
    laws.sqrt_sq _ (by positivity)
  apply (sq_eq_sq₀ (length_nonneg _) (mul_nonneg nonneg (length_nonneg v))).mp
  rw [mul_pow, length_sq, length_sq, Finset.mul_sum]
  simp only [Pi.smul_apply, smul_eq_mul, mul_pow]

/-- Short of half a turn, the logarithm recovers the rotation vector of an exponential. -/
theorem logarithm_exponential {v : Fin 3 → K} (positive : 0 < length arithmetic v)
    (sine : 0 < arithmetic.sin (length arithmetic v / 2))
    (cosine : 0 < arithmetic.cos (length arithmetic v / 2))
    (recovers : arithmetic.atan2 (arithmetic.sin (length arithmetic v / 2))
      (arithmetic.cos (length arithmetic v / 2)) = length arithmetic v / 2) :
    logarithm arithmetic (exponential arithmetic v 0) 0 = v := by
  generalize size : length arithmetic v = n at *
  have stretched : length arithmetic ((arithmetic.sin (n / 2) / n) • v) =
      arithmetic.sin (n / 2) := by
    rw [length_smul (div_nonneg sine.le positive.le), size, div_mul_cancel₀ _ positive.ne']
  have cancels : 2 * (n / 2) / arithmetic.sin (n / 2) * (arithmetic.sin (n / 2) / n) = 1 := by
    field_simp
  simp only [logarithm, exponential, size, regularized_zero, vectorPart_ofParts, re_ofParts,
    stretched, sense_of_pos cosine, one_mul, mul_one, recovers]
  rw [smul_smul, cancels, one_smul]

end Exponential

end Spatial

end LieScribe
