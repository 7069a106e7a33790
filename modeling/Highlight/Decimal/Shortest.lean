/-!
# Shortest decimals

The decimal of a binary floating-point value is the one with the fewest digits that reads back to
the same value, and of those the nearest. The reals that read back to a value form an interval that
reaches halfway to its two neighbours, ends included exactly when the mantissa is even; so whether a
decimal reads back is a comparison of naturals, without any rounding.
-/

namespace Highlight.Decimal

/-- A finite positive value `mantissa * 2 ^ exponent`. -/
structure Binary where
  mantissa : Nat
  exponent : Int
  /-- Whether the value below is only half as far away as the value above. -/
  tightBelow : Bool

/-- The magnitude held in the 64 bits of a finite value. -/
def Binary.ofBits (bits : UInt64) : Binary :=
  let exponent := ((bits >>> 52) &&& 0x7FF).toNat
  let fraction := (bits &&& 0xFFFFFFFFFFFFF).toNat
  if exponent = 0 then ⟨fraction, -1074, false⟩
  else ⟨0x10000000000000 + fraction, (exponent : Int) - 1075, fraction == 0 && 1 < exponent⟩

/-- A value `digits * 10 ^ exponent`. -/
structure Digits where
  digits : Nat
  exponent : Int

/-- The rounding interval of a value, measured in units of a power of ten: every field is a
numerator over `unit`. -/
structure Window where
  value : Nat
  low : Nat
  high : Nat
  unit : Nat
  /-- Whether the ends read back as well. -/
  closed : Bool

/-- The rounding interval in units of `10 ^ k`. -/
def Binary.window (x : Binary) (k : Int) : Window :=
  let up := Nat.pow 2 x.exponent.toNat * Nat.pow 10 (-k).toNat
  let down := 4 * Nat.pow 2 (-x.exponent).toNat * Nat.pow 10 k.toNat
  { value := 4 * x.mantissa * up
    low := (4 * x.mantissa - if x.tightBelow then 1 else 2) * up
    high := (4 * x.mantissa + 2) * up
    unit := down
    closed := x.mantissa % 2 == 0 }

/-- Whether a whole number of units reads back to the value. -/
def Window.contains (w : Window) (n : Nat) : Bool :=
  if w.closed then w.low ≤ n * w.unit && n * w.unit ≤ w.high
  else w.low < n * w.unit && n * w.unit < w.high

/-- The nearest whole number of units that reads back, among the two around the value. On an exact
tie the upper one is taken if `tieUp`, and the even one otherwise. -/
def Window.nearest? (w : Window) (tieUp : Bool) : Option Nat :=
  let below := w.value / w.unit
  let above := below + 1
  match w.contains below, w.contains above with
  | false, false => none
  | true, false => some below
  | false, true => some above
  | true, true =>
    match compare (2 * w.value) ((2 * below + 1) * w.unit) with
    | .lt => some below
    | .gt => some above
    | .eq => some (if tieUp || below % 2 == 1 then above else below)

/-- The least `k` with the value below `10 ^ k`. The binary logarithm gives it up to a few steps. -/
def Binary.magnitude (x : Binary) : Int :=
  let guess := ((x.mantissa.log2 : Int) + x.exponent) * 30103 / 100000
  let below (k : Int) : Bool :=
    let w := x.window k
    w.value < w.unit
  if below guess then guess
  else if below (guess + 1) then guess + 1
  else if below (guess + 2) then guess + 2
  else guess + 3

/-- Moves trailing zeros of the digits into the exponent, at most `fuel` of them. -/
def Digits.strip : Nat → Digits → Digits
  | 0, d => d
  | fuel + 1, d =>
    if d.digits ≠ 0 ∧ d.digits % 10 = 0 then strip fuel ⟨d.digits / 10, d.exponent + 1⟩ else d

/-- Every digit of the value. -/
def Binary.exact (x : Binary) : Digits :=
  if 0 ≤ x.exponent then ⟨x.mantissa * Nat.pow 2 x.exponent.toNat, 0⟩
  else ⟨x.mantissa * Nat.pow 5 (-x.exponent).toNat, x.exponent⟩

/-- The shortest decimal that reads back to the value. Grids of one to seventeen digits are tried in
turn; should none hold a decimal that reads back, all digits are kept. -/
def Binary.shortest (x : Binary) (tieUp : Bool) : Digits :=
  let top := x.magnitude
  let onGrid (n : Nat) : Option Digits :=
    let k := top - (n + 1 : Nat)
    ((x.window k).nearest? tieUp).map fun digits => (Digits.mk digits k).strip 20
  ((List.range 17).findSome? onGrid).getD x.exact

end Highlight.Decimal
