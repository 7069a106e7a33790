import Highlight.Decimal.Layout

/-!
# Numbers of JSON documents

A number without fraction and exponent is whole if it fits 64 bits, signed or unsigned; every other
number is a floating-point value. Minus zero is a floating-point value as well. The value of a
decimal is found from at most 64 bits of digits by a single multiplication or division with a power
of ten, so it may differ in the last place from the correctly rounded value.
-/

namespace Highlight.Json

/-- The value of a number. -/
inductive Number where
  | int (value : Int)
  | float (value : Float)

/-- Floating-point values show a point or an exponent, and an exponent from 10^16 on and below
10^-5. The exponent always has a sign. -/
def numberLayout : Decimal.Layout where
  plainFrom := -5
  plainBelow := 16
  pointZero := true
  expPlus := true
  tieUp := false

/-- The greatest exponent of a power of ten that is a finite value. -/
def maxPower : Nat := 308

/-- A power of ten. -/
def powerOfTen (n : Nat) : Float := Float.ofScientific 1 false n

/-- The magnitude of digits with an exponent; `none` if it is too great. Exponents below the least
power of ten are worked off in steps, at most `fuel` of them, which ends early once nothing is
left. -/
def scaled : Nat → Float → Int → Option Float
  | 0, value, _ => some value
  | fuel + 1, value, exponent =>
    if exponent.natAbs ≤ maxPower then
      if 0 ≤ exponent then
        let product := value * powerOfTen exponent.toNat
        if product.isInf then none else some product
      else some (value / powerOfTen exponent.natAbs)
    else if value == 0.0 then some value
    else if 0 ≤ exponent then none
    else scaled fuel (value / powerOfTen maxPower) (exponent + maxPower)

/-- The floating-point value of digits with an exponent. -/
def floatOf (negative : Bool) (digits : Nat) (exponent : Int) : Option Float :=
  (scaled 8 digits.toUInt64.toFloat exponent).map fun value => if negative then -value else value

end Highlight.Json
