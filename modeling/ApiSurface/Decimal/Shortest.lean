import ApiSurface.Decimal.Binary

/-!
# The shortest decimal that reads back

A finite binary number is the midpoint of an interval of reals that all round to
it.  Its shortest decimal is the one with the fewest digits inside that interval,
and of several with as few digits the nearest one.  All comparisons are exact, on
natural numbers over a common denominator.
-/

namespace ApiSurface.Decimal

/-- A positive number `value / unit`, the ends of the interval that rounds to it,
and whether the ends belong to the interval. -/
structure Interval where
  unit : Nat
  low : Nat
  value : Nat
  high : Nat
  closed : Bool

structure Scaled where
  digits : Nat
  exponent : Int

/-- The interval of `mantissa * 2 ^ exponent`; below a power of two the neighbour is
half as far away. -/
private def interval (mantissa : Nat) (exponent : Int) (powerOfTwo : Bool) :
    Interval :=
  let scale := Nat.pow 2 exponent.toNat
  let below := if powerOfTwo then 1 else 2
  { unit := 4 * Nat.pow 2 (-exponent).toNat
    low := (4 * mantissa - below) * scale
    value := 4 * mantissa * scale
    high := (4 * mantissa + 2) * scale
    closed := mantissa % 2 == 0 }

private def leadingZeros (value unit : Nat) : Nat → Nat → Nat
  | 0, power => power
  | fuel + 1, power => if unit ≤ value * Nat.pow 10 power then power
    else leadingZeros value unit fuel (power + 1)

def magnitude (range : Interval) : Int :=
  if range.unit ≤ range.value then
    ((Nat.toDigits 10 (range.value / range.unit)).length : Int) - 1
  else -(leadingZeros range.value range.unit 400 1 : Int)

def Interval.holds (range : Interval) (scaled unit : Nat) : Bool :=
  if range.closed then range.low * unit ≤ scaled && scaled ≤ range.high * unit
  else range.low * unit < scaled && scaled < range.high * unit

private def gridPoint? (range : Interval) (exponent : Int) : Option Scaled :=
  let up := Nat.pow 10 exponent.toNat
  let down := Nat.pow 10 (-exponent).toNat
  -- a grid point `n` stands for `n * up / down`; both sides are compared over `unit
  -- * down`
  let floor := range.value * down / (range.unit * up)
  let inside (n : Nat) : Bool := range.holds (n * up * range.unit) down
  let target := range.value * down
  let lowGap := target - floor * up * range.unit
  let highGap := (floor + 1) * up * range.unit - target
  if inside floor && 0 < floor &&
    (!inside (floor + 1) || lowGap < highGap ||
      (lowGap == highGap && floor % 2 == 0))
  then some ⟨floor, exponent⟩
  else if inside (floor + 1) then some ⟨floor + 1, exponent⟩
  else none

private def shortestFrom (range : Interval) (lead : Int) : Nat → Nat → Scaled
  | 0, _ => ⟨range.value / range.unit, 0⟩
  | fuel + 1, count =>
      match gridPoint? range (lead - count + 1) with
      | some decimal => decimal
      | none => shortestFrom range lead fuel (count + 1)

private def shortest (range : Interval) : Scaled :=
  shortestFrom range (magnitude range) 17 1

/-! ## Layout

Exponents of the leading digit from -4 to 15 are written positionally and a whole
number keeps `.0`; all others are written with a signed exponent of at least two
digits.
-/

private def dropZeros (digits : List Char) : List Char :=
  match (digits.reverse.dropWhile (· = '0')).reverse with
  | [] => ['0']
  | kept => kept

private def exponentText (exponent : Int) : List Char :=
  let digits := Nat.toDigits 10 exponent.natAbs
  (if exponent < 0 then ['e', '-'] else ['e', '+']) ++
    (if digits.length < 2 then '0' :: digits else digits)

def layout (digits : List Char) (lead : Int) : List Char :=
  if lead < -4 || 16 ≤ lead then
    match digits with
    | [] => []
    | [digit] => digit :: exponentText lead
    | digit :: rest => digit :: '.' :: rest ++ exponentText lead
  else if lead < 0 then
    ['0', '.'] ++ List.replicate (lead.natAbs - 1) '0' ++ digits
  else
    let whole := lead.toNat + 1
    if digits.length ≤ whole then
      digits ++ List.replicate (whole - digits.length) '0' ++ ['.', '0']
    else digits.take whole ++ '.' :: digits.drop whole

def Scaled.text (decimal : Scaled) : List Char :=
  let digits := Nat.toDigits 10 decimal.digits
  layout (dropZeros digits) (decimal.exponent + digits.length - 1)

def floatText (number : Float) : String :=
  let sign (negative : Bool) : String := if negative then "-" else ""
  match Binary.ofFloat number with
  | .undefined => "nan"
  | .infinite negative => sign negative ++ "inf"
  | .finite negative 0 _ => sign negative ++ "0.0"
  | .finite negative mantissa exponent =>
      let powerOfTwo := mantissa == Nat.pow 2 52 && -1074 < exponent
      sign negative ++
        String.ofList (shortest (interval mantissa exponent powerOfTwo)).text

end ApiSurface.Decimal
