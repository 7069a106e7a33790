import Highlight.Color.Lightness

/-!
# Relative luminance

How bright a color looks, as a weighted sum of its linearized channels rounded to four places.
Opacity does not count. A color can be moved towards the luminance of another one, unless it already
lies on the far side of it.
-/

namespace Highlight.Color

/-- The linear intensity of a channel. -/
def linearIntensity (channel : UInt8) : Float :=
  let c := channelToUnit channel
  if c <= 0.03928 then c / 12.92 else Float.pow ((c + 0.055) / 1.055) 2.4

/-- The relative luminance, 0 for black and 1 for white, to four places. -/
def luminance (c : Color) : Float :=
  let sum := 0.2126 * linearIntensity c.red + 0.7152 * linearIntensity c.green +
    0.0722 * linearIntensity c.blue
  (sum * 10000.0).round / 10000.0

/-- Whether the color looks brighter than another one. -/
def isLighterThan (c other : Color) : Bool := c.luminance > other.luminance

/-- Whether the color looks less bright than another one. -/
def isDarkerThan (c other : Color) : Bool := c.luminance < other.luminance

/-- A factor of zero stands for one half. -/
def effectiveFactor (factor : Float) : Float := if factor == 0.0 then 0.5 else factor

/-- Lightens a color towards the luminance of another one, unless it is already lighter. Black
gives nothing to move towards. -/
def lightenTowards (c target : Color) (factor : Float) : Color :=
  if c.isLighterThan target then c
  else
    let own := c.luminance
    let other := target.luminance
    if other == 0.0 then c
    else c.lighten (effectiveFactor factor * (other - own) / other)

/-- Darkens a color towards the luminance of another one, unless it is already darker. Black cannot
get darker. -/
def darkenTowards (c target : Color) (factor : Float) : Color :=
  if c.isDarkerThan target then c
  else
    let own := c.luminance
    let other := target.luminance
    if own == 0.0 then c
    else c.darken (effectiveFactor factor * (own - other) / own)

end Highlight.Color
