import LieScribe.Literal
import LieScribe.Operation

/-!
# Arithmetics

The operations of an expression can be read over any type of numbers.  An
`Arithmetic` lists what each of them means there; `Arithmetic.double` is the
reading in double precision.
-/

namespace LieScribe

/-- A meaning for the literals and operations of expressions.  Comparisons answer
with a number, one for true and zero for false. -/
structure Arithmetic (α : Type) where
  literal : Literal → α
  add : α → α → α
  sub : α → α → α
  mul : α → α → α
  div : α → α → α
  pow : α → α → α
  neg : α → α
  abs : α → α
  sign : α → α
  min : α → α → α
  max : α → α → α
  lt : α → α → α
  le : α → α → α
  gt : α → α → α
  ge : α → α → α
  sin : α → α
  cos : α → α
  tan : α → α
  asin : α → α
  acos : α → α
  atan : α → α
  atan2 : α → α → α
  sqrt : α → α
  exp : α → α
  log : α → α

namespace Arithmetic

variable {α : Type}

/-- Apply an operation to the values of its arguments.  There is no value for a
number of arguments that the operation does not accept, nor for a function. -/
def value? (arithmetic : Arithmetic α) : Operation → List α → Option α
  | .add, x :: y :: others => some ((y :: others).foldl arithmetic.add x)
  | .mul, x :: y :: others => some ((y :: others).foldl arithmetic.mul x)
  | .min, x :: y :: others => some ((y :: others).foldl arithmetic.min x)
  | .max, x :: y :: others => some ((y :: others).foldl arithmetic.max x)
  | .sub, [x, y] => some (arithmetic.sub x y)
  | .div, [x, y] => some (arithmetic.div x y)
  | .pow, [x, y] => some (arithmetic.pow x y)
  | .lt, [x, y] => some (arithmetic.lt x y)
  | .le, [x, y] => some (arithmetic.le x y)
  | .gt, [x, y] => some (arithmetic.gt x y)
  | .ge, [x, y] => some (arithmetic.ge x y)
  | .atan2, [x, y] => some (arithmetic.atan2 x y)
  | .neg, [x] => some (arithmetic.neg x)
  | .abs, [x] => some (arithmetic.abs x)
  | .sign, [x] => some (arithmetic.sign x)
  | .sin, [x] => some (arithmetic.sin x)
  | .cos, [x] => some (arithmetic.cos x)
  | .tan, [x] => some (arithmetic.tan x)
  | .asin, [x] => some (arithmetic.asin x)
  | .acos, [x] => some (arithmetic.acos x)
  | .atan, [x] => some (arithmetic.atan x)
  | .sqrt, [x] => some (arithmetic.sqrt x)
  | .exp, [x] => some (arithmetic.exp x)
  | .log, [x] => some (arithmetic.log x)
  | _, _ => none

/-! ## Double precision -/

/-- A truth value as a number. -/
def indicator (holds : Bool) : Float :=
  if holds then 1.0 else 0.0

/-- One, minus one, or a zero; no sign for a value that is no number. -/
def doubleSign (x : Float) : Float :=
  if x > 0.0 then 1.0 else if x < 0.0 then -1.0 else x * 0.0

/-- The smaller number; a value that is no number gives way to one that is. -/
def doubleMin (x y : Float) : Float :=
  if x.isNaN then y else if y.isNaN then x else if x < y then x else y

/-- The larger number; a value that is no number gives way to one that is. -/
def doubleMax (x y : Float) : Float :=
  if x.isNaN then y else if y.isNaN then x else if x > y then x else y

/-- Arithmetic of double precision numbers. -/
def double : Arithmetic Float where
  literal := Literal.value
  add x y := x + y
  sub x y := x - y
  mul x y := x * y
  div x y := x / y
  pow x y := Float.pow x y
  neg x := -x
  abs x := x.abs
  sign := doubleSign
  min := doubleMin
  max := doubleMax
  lt x y := indicator (x < y)
  le x y := indicator (x ≤ y)
  gt x y := indicator (x > y)
  ge x y := indicator (x ≥ y)
  sin := Float.sin
  cos := Float.cos
  tan := Float.tan
  asin := Float.asin
  acos := Float.acos
  atan := Float.atan
  atan2 := Float.atan2
  sqrt := Float.sqrt
  exp := Float.exp
  log := Float.log

end Arithmetic

end LieScribe
