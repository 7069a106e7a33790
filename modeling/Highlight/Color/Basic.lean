import Highlight.Text.Hexadecimal

/-!
# Colors

A color has three channels and an opacity, eight bits each. Its canonical spelling is `#RRGGBB` in
upper-case hexadecimal, with the alpha channel behind it when the color is not opaque.
-/

namespace Highlight

/-- A color with an alpha channel; 255 is opaque. -/
structure Color where
  red : UInt8
  green : UInt8
  blue : UInt8
  alpha : UInt8
  deriving DecidableEq, Hashable, Repr

namespace Color

/-- An opaque color. -/
def rgb (red green blue : UInt8) : Color := ⟨red, green, blue, 255⟩

/-- Opaque white. -/
def white : Color := rgb 255 255 255

/-- Opaque black. -/
def black : Color := rgb 0 0 0

/-- The two digits of a channel. -/
def hexPair (channel : UInt8) : List Char :=
  [Text.hexDigit (channel.toNat / 16), Text.hexDigit (channel.toNat % 16)]

/-- The digits of a color: three channels, and alpha unless the color is opaque. -/
def hexBody (c : Color) : List Char :=
  hexPair c.red ++ hexPair c.green ++ hexPair c.blue ++
    if c.alpha < 255 then hexPair c.alpha else []

/-- The canonical spelling of a color. -/
def toHex (c : Color) : String := String.ofList ('#' :: c.hexBody)

end Color

end Highlight
