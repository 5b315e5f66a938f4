import ApiSurface.Text.Basic

/-!
# Character tables

A property of characters is a list of closed ranges of code points; a mapping of
characters is a list of strides, each of which moves every `step`-th code point of a
range by the same distance.
-/

namespace ApiSurface.Text

abbrev Ranges := List (Nat × Nat)

def Ranges.holds (ranges : Ranges) (character : Char) : Bool :=
  ranges.any fun range => range.1 ≤ character.toNat && character.toNat ≤ range.2

structure Stride where
  first : Nat
  last : Nat
  step : Nat
  distance : Int
  deriving DecidableEq, Repr

def Stride.covers (stride : Stride) (code : Nat) : Bool :=
  stride.first ≤ code && code ≤ stride.last &&
    (code - stride.first) % stride.step == 0

def moveBy (strides : List Stride) (character : Char) : Char :=
  match strides.find? (·.covers character.toNat) with
  | some stride => Char.ofNat (character.toNat + stride.distance).toNat
  | none => character

end ApiSurface.Text
