/-!
# Shortest decimals

A positive binary number `m * 2 ^ q` stands for every real number that rounds to
it.  Among the decimals that round to it this module chooses one with the fewest
significant digits and, of those, one nearest to the number.

All comparisons are made on natural numbers.  The number and the ends of its
rounding interval are held as numerators over one denominator, and a grid
`10 ^ k` of decimals is compared with them after clearing the power of ten.
-/

namespace LieScribe.Decimal

/-- A decimal `digits * 10 ^ exponent`. -/
structure Scaled where
  digits : Nat
  exponent : Int
  deriving DecidableEq, Repr

/-- A positive number together with the interval of the reals that round to it,
as numerators over a common denominator. -/
structure Interval where
  low : Nat
  value : Nat
  high : Nat
  denominator : Nat
  closed : Bool
  deriving DecidableEq, Repr

namespace Interval

/-- The interval of `m * 2 ^ q`.  Its ends are half a unit away, the lower one a
quarter when the next smaller binary number has a finer unit, and they belong to
it when `m` is even. -/
def ofBinary (m : Nat) (q : Int) (finerBelow : Bool) : Interval :=
  let quarter := Nat.pow 2 (q - 2).toNat
  { low := (4 * m - (if finerBelow then 1 else 2)) * quarter
    value := 4 * m * quarter
    high := (4 * m + 2) * quarter
    denominator := Nat.pow 2 (2 - q).toNat
    closed := m % 2 == 0 }

/-- Compare `digits * 10 ^ exponent` with `numerator / denominator`. -/
def compareScaled (interval : Interval) (decimal : Scaled) (numerator : Nat) :
    Ordering :=
  compare
    (decimal.digits * Nat.pow 10 decimal.exponent.toNat * interval.denominator)
    (numerator * Nat.pow 10 (-decimal.exponent).toNat)

/-- Does the decimal round to the number? -/
def contains (interval : Interval) (decimal : Scaled) : Bool :=
  match interval.compareScaled decimal interval.low,
    interval.compareScaled decimal interval.high with
  | .gt, .lt => true
  | .eq, _ => interval.closed
  | _, .eq => interval.closed
  | _, _ => false

/-- The whole part of the number, counted in units of `10 ^ exponent`. -/
def wholeUnits (interval : Interval) (exponent : Int) : Nat :=
  interval.value * Nat.pow 10 (-exponent).toNat /
    (interval.denominator * Nat.pow 10 exponent.toNat)

/-- Is the number nearer to `units * 10 ^ exponent` than to the next point of that
grid?  At the middle the upper point is preferred. -/
def nearerBelow (interval : Interval) (units : Nat) (exponent : Int) : Bool :=
  2 * interval.value * Nat.pow 10 (-exponent).toNat <
    (2 * units + 1) * (interval.denominator * Nat.pow 10 exponent.toNat)

/-- The point of the grid `10 ^ exponent` that rounds to the number, the nearer
one if both neighbours do. -/
def onGrid? (interval : Interval) (exponent : Int) : Option Scaled :=
  let units := interval.wholeUnits exponent
  let below : Scaled := ⟨units, exponent⟩
  let above : Scaled := ⟨units + 1, exponent⟩
  match interval.contains below, interval.contains above with
  | true, true =>
      some (if interval.nearerBelow units exponent then below else above)
  | true, false => some below
  | false, true => some above
  | false, false => none

end Interval

/-- The number of decimal digits of a positive number, and zero for zero. -/
def digitCount (n : Nat) : Nat :=
  if n = 0 then 0 else (Nat.toDigits 10 n).length

/-- The exponent of the leading decimal digit of `numerator / denominator`. -/
def leadingExponent (numerator denominator : Nat) : Int :=
  if denominator ≤ numerator then
    (digitCount (numerator / denominator) : Int) - 1
  else
    -(digitCount ((denominator - 1) / numerator) : Int)

/-- Try grids from `exponent` downward, at most `more + 1` of them.  The finest
one answers with the point below the number if no grid holds a point that rounds
to it. -/
def search (interval : Interval) : Nat → Int → Scaled
  | 0, exponent =>
      (interval.onGrid? exponent).getD ⟨interval.wholeUnits exponent, exponent⟩
  | more + 1, exponent =>
      match interval.onGrid? exponent with
      | some decimal => decimal
      | none => search interval more (exponent - 1)

/-- Seventeen significant digits tell all double precision numbers apart. -/
def mostDigits : Nat := 17

/-- The shortest decimal that rounds to `m * 2 ^ q`, for positive `m`. -/
def shortest (m : Nat) (q : Int) (finerBelow : Bool) : Scaled :=
  let interval := Interval.ofBinary m q finerBelow
  search interval (mostDigits - 1)
    (leadingExponent interval.value interval.denominator)

end LieScribe.Decimal
