import Highlight.Color.Basic

/-!
# Lightness and opacity

A color can be taken apart into hue, saturation and lightness. Darkening and lightening change the
lightness by a share of itself and put the color together again; the opacity is not part of this and
stays as it is. Making a color transparent scales its opacity and leaves the channels alone.
-/

namespace Highlight

/-- Hue in degrees, saturation and lightness between 0 and 1. -/
structure Hsl where
  hue : Float
  saturation : Float
  lightness : Float

/-- The channel nearest to a share of full intensity. Shares below 0, above 1 and undefined ones end
at the nearest bound, the last at 0. -/
def unitToChannel (share : Float) : UInt8 := (share * 255.0).round.toUInt8

/-- A channel as a share of full intensity. -/
def channelToUnit (channel : UInt8) : Float := channel.toFloat / 255.0

/-- The value moved into the interval from 0 to 1; an undefined value stays undefined. -/
def clampUnit (x : Float) : Float :=
  if x < 0.0 then 0.0 else if x > 1.0 then 1.0 else x

namespace Hsl

/-- The parts of a color given by the shares of its three channels. -/
def ofUnits (r g b : Float) : Hsl :=
  let high := max (max r g) b
  let low := min (min r g) b
  let chroma := high - low
  let lightness := (high + low) / 2.0
  if chroma > 0.0 then
    let saturation :=
      if lightness <= 0.5 then chroma / (2.0 * lightness)
      else chroma / (2.0 - 2.0 * lightness)
    let sextant :=
      if high == r then (g - b) / chroma + if g < b then 6.0 else 0.0
      else if high == g then (b - r) / chroma + 2.0
      else (r - g) / chroma + 4.0
    ⟨sextant * 60.0, min saturation 1.0, lightness⟩
  else ⟨0.0, 0.0, lightness⟩

/-- One channel, `turn` of the color wheel away from the start, between the bounds `p` and `q`. -/
def wheel (p q turn : Float) : Float :=
  let t := if turn < 0.0 then turn + 1.0 else turn
  let t := if t > 1.0 then t - 1.0 else t
  if t < 1.0 / 6.0 then p + (q - p) * 6.0 * t
  else if t < 1.0 / 2.0 then q
  else if t < 2.0 / 3.0 then p + (q - p) * (2.0 / 3.0 - t) * 6.0
  else p

/-- The shares of the three channels. -/
def toUnits (c : Hsl) : Float × Float × Float :=
  let l := clampUnit c.lightness
  let s := clampUnit c.saturation
  let h := c.hue / 360.0
  if s == 0.0 then (l, l, l)
  else
    let q := if l < 0.5 then l * (1.0 + s) else l + s - l * s
    let p := 2.0 * l - q
    (wheel p q (h + 1.0 / 3.0), wheel p q h, wheel p q (h - 1.0 / 3.0))

/-- The color with these parts and an opacity. -/
def toColor (c : Hsl) (alpha : UInt8) : Color :=
  let (r, g, b) := c.toUnits
  ⟨unitToChannel r, unitToChannel g, unitToChannel b, alpha⟩

end Hsl

namespace Color

/-- Hue, saturation and lightness of a color. -/
def hsl (c : Color) : Hsl :=
  Hsl.ofUnits (channelToUnit c.red) (channelToUnit c.green) (channelToUnit c.blue)

/-- The color with another lightness. -/
def withLightness (c : Color) (change : Float → Float) : Color :=
  let parts := c.hsl
  Hsl.toColor { parts with lightness := change parts.lightness } c.alpha

/-- Takes away a share of the lightness. -/
def darken (c : Color) (factor : Float) : Color := c.withLightness fun l => l - l * factor

/-- Adds a share of the lightness. -/
def lighten (c : Color) (factor : Float) : Color := c.withLightness fun l => l + l * factor

/-- Scales the opacity. -/
def transparent (c : Color) (factor : Float) : Color :=
  { c with alpha := unitToChannel (channelToUnit c.alpha * factor) }

end Color

end Highlight
