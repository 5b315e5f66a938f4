/-!
# Binary numbers without rounding

A number in double precision is taken apart into its sign, mantissa and exponent, so
that it can be compared with whole numbers of any size.
-/

namespace ApiSurface.Decimal

/-- What the bits of a number stand for; a finite one is `mantissa * 2 ^ exponent`
with a sign. -/
inductive Binary where
  | finite (negative : Bool) (mantissa : Nat) (exponent : Int)
  | infinite (negative : Bool)
  | undefined

def Binary.ofFloat (number : Float) : Binary :=
  let bits : Nat := number.toBits.toNat
  let negative := bits / Nat.pow 2 63 == 1
  let field : Nat := bits / Nat.pow 2 52 % Nat.pow 2 11
  let fraction : Nat := bits % Nat.pow 2 52
  if field == 0x7FF then if fraction == 0 then .infinite negative else .undefined
  else if field == 0 then .finite negative fraction (-1074)
  else .finite negative (Nat.pow 2 52 + fraction) ((field : Int) - 1075)

/-- An exact number `numerator / 2 ^ power`, or one of the two ends of the line. -/
inductive Exact where
  | lowest
  | ratio (numerator : Int) (power : Nat)
  | highest
  deriving DecidableEq, Repr

namespace Exact

def ofFloat? (number : Float) : Option Exact :=
  match Binary.ofFloat number with
  | .undefined => none
  | .infinite negative => some (if negative then .lowest else .highest)
  | .finite negative mantissa exponent =>
      let scaled : Int := mantissa * Nat.pow 2 exponent.toNat
      some (.ratio (if negative then -scaled else scaled) (-exponent).toNat)

def ofInt (value : Int) : Exact := .ratio value 0

def whole? : Exact → Option Int
  | .ratio numerator power =>
      if numerator.natAbs % Nat.pow 2 power = 0 then
        some (numerator.tdiv (Nat.pow 2 power))
      else none
  | _ => none

def truncate? : Exact → Option Int
  | .ratio numerator power => some (numerator.tdiv (Nat.pow 2 power))
  | _ => none

def below : Exact → Exact → Bool
  | .lowest, .lowest => false
  | .lowest, _ => true
  | .ratio left power, .ratio right other =>
    left * Nat.pow 2 other < right * Nat.pow 2 power
  | .ratio _ _, .highest => true
  | _, _ => false

def same (first second : Exact) : Bool := !first.below second && !second.below first

end Exact

end ApiSurface.Decimal
