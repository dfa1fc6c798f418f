import LieScribe.Proofs.Evaluation
import Mathlib

/-!
# Exact arithmetic

An arithmetic over a field is exact if its literals are the rational numbers they denote and
its sums, products, quotients and squares are those of the field.  Nothing is said about the
elementary functions.  Under exact arithmetic the value of an expression is read off its form,
one lemma for each way of building it; `Expr.Denotes` is the relation that these lemmas put
together.

The real numbers with their elementary functions are an exact arithmetic.
-/

namespace LieScribe

/-! ## Literals as rational numbers -/

namespace Literal

open Float.Model (UnpackedFloat)
open Float.Model.UnpackedFloat

/-- The rational number that a literal denotes; infinities and what is no number denote
none. -/
def rational? : Literal → Option ℚ
  | .int value => some value.toInt
  | .float value =>
      match value.toModel.unpack with
      | .zero _ => some 0
      | .finite sign mantissa exponent _ => some (sign.apply mantissa * 2 ^ exponent)
      | _ => none

theorem rational?_half : (Literal.float 0.5).rational? = some (1 / 2) := by
  have unpacked : ∃ positive,
      (0.5 : Float).toModel.unpack = .finite .positive (2 ^ 52) (-53) positive :=
    ⟨by decide, rfl⟩
  obtain ⟨positive, unpacked⟩ := unpacked
  simp only [rational?, unpacked]
  norm_num [Sign.apply]

end Literal

/-! ## Exact arithmetics -/

/-- Literals are read as the rational numbers they denote, and the operations of a field as
those of the field.  A power is read exactly where it is a square. -/
class Arithmetic.Exact {K : Type} [Field K] (arithmetic : Arithmetic K) : Prop where
  literal : ∀ (literal : Literal) (number : ℚ), literal.rational? = some number →
    arithmetic.literal literal = number
  add : ∀ x y, arithmetic.add x y = x + y
  sub : ∀ x y, arithmetic.sub x y = x - y
  mul : ∀ x y, arithmetic.mul x y = x * y
  div : ∀ x y, arithmetic.div x y = x / y
  neg : ∀ x, arithmetic.neg x = -x
  square : ∀ x, arithmetic.pow x 2 = x ^ 2

/-- Exact arithmetic over an ordered field, with the sign of a number. -/
class Arithmetic.ExactOrdered {K : Type} [Field K] [LinearOrder K]
    (arithmetic : Arithmetic K) : Prop extends arithmetic.Exact where
  sign : ∀ x, arithmetic.sign x = SignType.sign x

/-- Exact arithmetic in which the elementary functions used by groups obey their laws.  Nothing
is said about the inverse of the sine and cosine. -/
class Arithmetic.Trigonometric {K : Type} [Field K] [LinearOrder K]
    (arithmetic : Arithmetic K) : Prop extends arithmetic.ExactOrdered where
  sin_sq_add_cos_sq : ∀ t, arithmetic.sin t ^ 2 + arithmetic.cos t ^ 2 = 1
  sin_two_mul : ∀ t, arithmetic.sin (2 * t) = 2 * arithmetic.sin t * arithmetic.cos t
  cos_two_mul : ∀ t, arithmetic.cos (2 * t) = arithmetic.cos t ^ 2 - arithmetic.sin t ^ 2
  sqrt_sq : ∀ y, 0 ≤ y → arithmetic.sqrt y ^ 2 = y
  sqrt_nonneg : ∀ y, 0 ≤ y → 0 ≤ arithmetic.sqrt y

/-! ## The values of expressions -/

theorem Arithmetic.accepts_of_value? {α : Type} {arithmetic : Arithmetic α}
    {operation : Operation} {values : List α} {value : α}
    (computed : arithmetic.value? operation values = some value) :
    operation.arity.accepts values.length = true ∧ operation.isFunction = false := by
  rcases values with _ | ⟨first, _ | ⟨second, _ | ⟨third, others⟩⟩⟩ <;>
    cases operation <;>
    simp_all [Arithmetic.value?, Operation.arity, Arity.accepts, Operation.isFunction]

namespace Expr

/-- The expression has this value. -/
def Denotes {α : Type} (arithmetic : Arithmetic α) (bindings : Bindings α) (expr : Expr)
    (value : α) : Prop :=
  expr.evaluateIn arithmetic bindings = .ok value

section AnyArithmetic

variable {α : Type} {arithmetic : Arithmetic α} {bindings : Bindings α} {x y : Expr} {u v : α}

theorem evaluateAllIn_eq_ok_iff_denotes {exprs : List Expr} {values : List α} :
    evaluateAllIn arithmetic bindings exprs = .ok values ↔
      List.Forall₂ (Denotes arithmetic bindings) exprs values :=
  evaluateAllIn_eq_ok_iff

theorem Denotes.op {operation : Operation} {arguments : List Expr} {values : List α} {value : α}
    (each : List.Forall₂ (Denotes arithmetic bindings) arguments values)
    (computed : arithmetic.value? operation values = some value) :
    (Expr.op operation arguments).Denotes arithmetic bindings value := by
  obtain ⟨accepted, interpreted⟩ := Arithmetic.accepts_of_value? computed
  rw [← each.length_eq] at accepted
  simp only [Denotes, evaluateIn, Outcome.bind_eq_ok_iff]
  exact ⟨(), Operation.checkCount_eq_ok_iff.mpr accepted,
    (), rejectFunction_eq_ok_iff.mpr interpreted,
    values, evaluateAllIn_eq_ok_iff_denotes.mpr each, by rw [computed]⟩

theorem Denotes.sin (argument : x.Denotes arithmetic bindings u) :
    x.sin.Denotes arithmetic bindings (arithmetic.sin u) :=
  .op (.cons argument .nil) rfl

theorem Denotes.cos (argument : x.Denotes arithmetic bindings u) :
    x.cos.Denotes arithmetic bindings (arithmetic.cos u) :=
  .op (.cons argument .nil) rfl

theorem Denotes.sqrt (argument : x.Denotes arithmetic bindings u) :
    x.sqrt.Denotes arithmetic bindings (arithmetic.sqrt u) :=
  .op (.cons argument .nil) rfl

theorem Denotes.atan2 (ordinate : x.Denotes arithmetic bindings u)
    (abscissa : y.Denotes arithmetic bindings v) :
    (Expr.atan2 x y).Denotes arithmetic bindings (arithmetic.atan2 u v) :=
  .op (.cons ordinate (.cons abscissa .nil)) rfl

end AnyArithmetic

section ExactArithmetic

variable {K : Type} [Field K] {arithmetic : Arithmetic K} [isExact : arithmetic.Exact]
  {bindings : Bindings K} {x y : Expr} {u v : K}

theorem denotes_literal {literal : Literal} {number : ℚ}
    (denotes : literal.rational? = some number) :
    (Expr.literal literal).Denotes arithmetic bindings (number : K) :=
  congrArg Except.ok (isExact.literal literal number denotes)

theorem denotes_zero : (0 : Expr).Denotes arithmetic bindings (0 : K) := by
  have denotes : (Expr.int 0).Denotes arithmetic bindings ((0 : ℚ) : K) := denotes_literal rfl
  rwa [Rat.cast_zero] at denotes

theorem denotes_one : (1 : Expr).Denotes arithmetic bindings (1 : K) := by
  have denotes : (Expr.int 1).Denotes arithmetic bindings ((1 : ℚ) : K) := denotes_literal rfl
  rwa [Rat.cast_one] at denotes

theorem denotes_two : (2 : Expr).Denotes arithmetic bindings (2 : K) := by
  have denotes : (Expr.int 2).Denotes arithmetic bindings ((2 : ℚ) : K) := denotes_literal rfl
  rwa [Rat.cast_ofNat] at denotes

theorem denotes_half : (Expr.float 0.5).Denotes arithmetic bindings (1 / 2 : K) := by
  have denotes : (Expr.float 0.5).Denotes arithmetic bindings ((1 / 2 : ℚ) : K) :=
    denotes_literal Literal.rational?_half
  have numerator : (1 / 2 : ℚ).num = 1 := by norm_num
  have denominator : (1 / 2 : ℚ).den = 2 := by norm_num
  rwa [Rat.cast_def, numerator, denominator, Int.cast_one, Nat.cast_ofNat] at denotes

namespace Denotes

theorem add (left : x.Denotes arithmetic bindings u) (right : y.Denotes arithmetic bindings v) :
    (x + y).Denotes arithmetic bindings (u + v) := by
  rw [← isExact.add]
  exact .op (.cons left (.cons right .nil)) rfl

theorem sum_three {z : Expr} {w : K} (first : x.Denotes arithmetic bindings u)
    (second : y.Denotes arithmetic bindings v) (third : z.Denotes arithmetic bindings w) :
    (Expr.sum [x, y, z]).Denotes arithmetic bindings (u + v + w) := by
  rw [← isExact.add, ← isExact.add]
  exact .op (.cons first (.cons second (.cons third .nil))) rfl

theorem sub (left : x.Denotes arithmetic bindings u) (right : y.Denotes arithmetic bindings v) :
    (x - y).Denotes arithmetic bindings (u - v) := by
  rw [← isExact.sub]
  exact .op (.cons left (.cons right .nil)) rfl

theorem mul (left : x.Denotes arithmetic bindings u) (right : y.Denotes arithmetic bindings v) :
    (x * y).Denotes arithmetic bindings (u * v) := by
  rw [← isExact.mul]
  exact .op (.cons left (.cons right .nil)) rfl

theorem div (left : x.Denotes arithmetic bindings u) (right : y.Denotes arithmetic bindings v) :
    (x / y).Denotes arithmetic bindings (u / v) := by
  rw [← isExact.div]
  exact .op (.cons left (.cons right .nil)) rfl

/-- Only literals are not negated by an operation. -/
theorem neg (operand : x.Denotes arithmetic bindings u) (noLiteral : x.literal? = none) :
    (-x).Denotes arithmetic bindings (-u) := by
  rw [← isExact.neg]
  cases x with
  | symbol leaf => exact .op (.cons operand .nil) rfl
  | literal constant => cases noLiteral
  | op operation arguments => exact .op (.cons operand .nil) rfl

theorem squared (base : x.Denotes arithmetic bindings u) :
    x.squared.Denotes arithmetic bindings (u ^ 2) := by
  rw [← isExact.square]
  exact .op (.cons base (.cons denotes_two .nil)) rfl

end Denotes

end ExactArithmetic

section OrderedArithmetic

variable {K : Type} [Field K] [LinearOrder K] {arithmetic : Arithmetic K}
  [isExact : arithmetic.ExactOrdered] {bindings : Bindings K} {x : Expr} {u : K}

theorem Denotes.sign (argument : x.Denotes arithmetic bindings u) :
    x.sign.Denotes arithmetic bindings (SignType.sign u : K) := by
  rw [← isExact.sign]
  exact .op (.cons argument .nil) rfl

end OrderedArithmetic

end Expr

/-! ## Real numbers -/

namespace Arithmetic

/-- Arithmetic of real numbers.  A comparison is one or zero, and the argument of a pair is
that of the complex number with the second as its real part. -/
noncomputable def real : Arithmetic ℝ where
  literal literal := (literal.rational?.getD 0 : ℚ)
  add x y := x + y
  sub x y := x - y
  mul x y := x * y
  div x y := x / y
  pow x y := x ^ y
  neg x := -x
  abs x := |x|
  sign x := SignType.sign x
  min x y := Min.min x y
  max x y := Max.max x y
  lt x y := if x < y then 1 else 0
  le x y := if x ≤ y then 1 else 0
  gt x y := if x > y then 1 else 0
  ge x y := if x ≥ y then 1 else 0
  sin := Real.sin
  cos := Real.cos
  tan := Real.tan
  asin := Real.arcsin
  acos := Real.arccos
  atan := Real.arctan
  atan2 y x := Complex.arg ⟨x, y⟩
  sqrt := Real.sqrt
  exp := Real.exp
  log := Real.log

instance : real.Trigonometric where
  literal literal number denotes := by simp [real, denotes]
  add _ _ := rfl
  sub _ _ := rfl
  mul _ _ := rfl
  div _ _ := rfl
  neg _ := rfl
  square x := Real.rpow_two x
  sign _ := rfl
  sin_sq_add_cos_sq := Real.sin_sq_add_cos_sq
  sin_two_mul := Real.sin_two_mul
  cos_two_mul := Real.cos_two_mul'
  sqrt_sq _ := Real.sq_sqrt
  sqrt_nonneg y _ := Real.sqrt_nonneg y

/-- Between minus and plus half a turn an angle is recovered from its sine and cosine. -/
theorem real_atan2_sin_cos {angle : ℝ} (lower : -Real.pi < angle) (upper : angle ≤ Real.pi) :
    real.atan2 (real.sin angle) (real.cos angle) = angle := by
  have argument := Complex.arg_cos_add_sin_mul_I ⟨lower, upper⟩
  rw [← Complex.ofReal_cos, ← Complex.ofReal_sin, ← Complex.mk_eq_add_mul_I] at argument
  exact argument

end Arithmetic

end LieScribe
