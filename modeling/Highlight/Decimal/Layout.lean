import Highlight.Decimal.Shortest

/-!
# Writing decimals

A layout says how the digits of a floating-point value are set: for which magnitudes positional
notation is used, whether a whole value shows a point, and whether an exponent always shows its
sign. The digits themselves are the shortest ones. Values with a fixed number of places are rounded
from the exact binary value.
-/

namespace Highlight.Decimal

/-- The decisions that turn digits into text. -/
structure Layout where
  /-- The least exponent of the leading digit that is written positionally. -/
  plainFrom : Int
  /-- From this exponent of the leading digit on, an exponent is written. -/
  plainBelow : Int
  /-- Whether whole values in positional notation end in `.0`. -/
  pointZero : Bool
  /-- Whether an exponent that is not negative has a plus sign. -/
  expPlus : Bool
  /-- Whether the upper of two equally near shortest decimals is taken. -/
  tieUp : Bool

/-- A run of zeros. -/
def zeros (n : Nat) : String := String.ofList (List.replicate n '0')

/-- Digits with the point where the exponent puts it. -/
def Layout.positional (layout : Layout) (text : String) (exponent : Int) : String :=
  let point : Int := text.length + exponent
  if 0 ≤ exponent then
    text ++ zeros exponent.toNat ++ if layout.pointZero then ".0" else ""
  else if 0 < point then
    let digits := text.toList
    String.ofList (digits.take point.toNat) ++ "." ++ String.ofList (digits.drop point.toNat)
  else "0." ++ zeros (-point).toNat ++ text

/-- Digits with a point after the first and the exponent of the first behind an `e`. -/
def Layout.scientific (layout : Layout) (text : String) (leading : Int) : String :=
  let mantissa :=
    match text.toList with
    | first :: second :: rest => String.ofList (first :: '.' :: second :: rest)
    | _ => text
  let plus := if layout.expPlus && 0 ≤ leading then "+" else ""
  mantissa ++ "e" ++ plus ++ toString leading

/-- The text of a decimal. -/
def Layout.write (layout : Layout) (d : Digits) : String :=
  let text := toString d.digits
  let leading : Int := (text.length : Int) - 1 + d.exponent
  if layout.plainFrom ≤ leading ∧ leading < layout.plainBelow then
    layout.positional text d.exponent
  else layout.scientific text leading

/-- Whether the sign bit is set. -/
def isNegative (x : Float) : Bool := x.toBits >>> 63 == 1

/-- The text of a floating-point value, with the sign of zero kept. -/
def Layout.render (layout : Layout) (x : Float) : String :=
  if x.isNaN then "NaN"
  else
    let sign := if isNegative x then "-" else ""
    let magnitude := Binary.ofBits (x.toBits &&& 0x7FFFFFFFFFFFFFFF)
    if x.isInf then sign ++ "inf"
    else if magnitude.mantissa = 0 then sign ++ if layout.pointZero then "0.0" else "0"
    else sign ++ layout.write (magnitude.shortest layout.tieUp)

/-- A quotient rounded to the nearest whole number, ties going to the even one. -/
def roundDiv (num den : Nat) : Nat :=
  let quotient := num / den
  match compare (2 * (num % den)) den with
  | .lt => quotient
  | .gt => quotient + 1
  | .eq => quotient + quotient % 2

/-- A finite value with a fixed number of places, rounded from its exact binary value. -/
def fixed (places : Nat) (x : Float) : String :=
  let magnitude := Binary.ofBits (x.toBits &&& 0x7FFFFFFFFFFFFFFF)
  let num := magnitude.mantissa * Nat.pow 2 magnitude.exponent.toNat * Nat.pow 10 places
  let text := toString (roundDiv num (Nat.pow 2 (-magnitude.exponent).toNat))
  let padded := (zeros (places + 1 - text.length) ++ text).toList
  let whole := padded.length - places
  let sign := if isNegative x then "-" else ""
  if places = 0 then sign ++ String.ofList padded
  else sign ++ String.ofList (padded.take whole) ++ "." ++ String.ofList (padded.drop whole)

end Highlight.Decimal
