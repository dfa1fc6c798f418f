import LieScribe.Decimal.Shortest

/-!
# The text of a double precision number

A number is written with its shortest decimal digits.  Numbers of moderate size
are written positionally and always show a fractional part; very small and very
large ones show an exponent.  A `Layout` holds the decisions of one format.
-/

namespace LieScribe.Decimal

/-- How decimals are laid out: the exponents of the leading digit that are
written positionally, and the texts of the values that are no numbers. -/
structure Layout where
  leastPositional : Int
  mostPositional : Int
  notANumber : String
  infinite : String
  deriving DecidableEq, Repr

/-- Literals are positional from `0.0001` up to, but not including, `1e16`. -/
def Layout.literal : Layout :=
  ⟨-4, 15, "NaN", "inf"⟩

/-- Digits with a point after the first `places` of them, padded with zeros on
either side so that both parts show at least one digit. -/
def positional (digits : List Char) (places : Int) : List Char :=
  let padded := List.replicate (1 - places).toNat '0' ++ digits
  let whole := (max places 1).toNat
  let filled := padded ++ List.replicate (whole + 1 - padded.length) '0'
  filled.take whole ++ '.' :: filled.drop whole

/-- Digits with a point after the first one, if there are more, and an exponent. -/
def exponential (digits : List Char) (exponent : Int) : List Char :=
  let mantissa :=
    match digits with
    | first :: second :: others => first :: '.' :: second :: others
    | few => few
  mantissa ++ 'e' :: (Int.repr exponent).toList

/-- Drop trailing zeros. -/
def trimZeros (digits : List Char) : List Char :=
  (digits.reverse.dropWhile (· == '0')).reverse

/-- Lay out a positive decimal. -/
def Layout.write (layout : Layout) (decimal : Scaled) : List Char :=
  let digits := Nat.toDigits 10 decimal.digits
  let leading := decimal.exponent + digits.length - 1
  if layout.leastPositional ≤ leading && leading ≤ layout.mostPositional then
    positional (trimZeros digits) (leading + 1)
  else
    exponential (trimZeros digits) leading

/-- The sign bit of a number.  A value that is no number has none. -/
def isSignNegative (x : Float) : Bool :=
  x.toBits >>> 63 == 1

/-- The text of the magnitude of a number. -/
def Layout.magnitude (layout : Layout) (x : Float) : String :=
  let bits := x.toBits.toNat
  let fraction : Nat := bits % Nat.pow 2 52
  let biased : Nat := bits / Nat.pow 2 52 % Nat.pow 2 11
  if biased = 2047 then
    layout.infinite
  else if biased = 0 then
    if fraction = 0 then
      "0.0"
    else
      String.ofList (layout.write (shortest fraction (-1074) false))
  else
    let finerBelow := fraction == 0 && biased > 1
    String.ofList
      (layout.write
        (shortest (Nat.pow 2 52 + fraction) ((biased : Int) - 1075) finerBelow))

/-- The text of a number, with its sign. -/
def Layout.text (layout : Layout) (x : Float) : String :=
  if x.isNaN then
    layout.notANumber
  else if isSignNegative x then
    "-" ++ layout.magnitude x
  else
    layout.magnitude x

end LieScribe.Decimal
