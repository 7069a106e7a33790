import Highlight.Color.Hex
import Highlight.Color.Luminance
import Highlight.ThemeKind

/-!
# Color values

A color value is an expression that becomes a color once a theme is known: a literal, a reference to
a named color, or a color derived from other values. Since looking up a name may lead to further
values, every computation runs with a meter that counts the references it is inside of.
-/

namespace Highlight

/-- A computation that reads and sets the number of references it is inside of. -/
abbrev Metered (α : Type) := StateM Nat α

/-- What a color value may ask of the theme it is resolved against. -/
structure ThemeView where
  /-- The kind of the theme. -/
  kind : ThemeKind
  /-- The color of an identifier, if the theme has one. -/
  color : String → Metered (Option Color)

/-- An expression for a color. -/
inductive ColorValue where
  /-- This very color. -/
  | literal (color : Color)
  /-- The color of an identifier, or the color written behind a `#`. -/
  | reference (id : String)
  /-- A value with less lightness. -/
  | darken (value : ColorValue) (factor : Float)
  /-- A value with more lightness. -/
  | lighten (value : ColorValue) (factor : Float)
  /-- A value with its opacity scaled. -/
  | transparent (value : ColorValue) (factor : Float)
  /-- The first of the values that gives a color. -/
  | oneOf (values : List ColorValue)
  /-- A value moved towards a background, then made transparent. -/
  | lessProminent (value background : ColorValue) (factor transparency : Float)
  /-- Whatever a function makes of the theme. -/
  | custom (compute : ThemeView → Metered (Option Color))

namespace ColorValue

/-- The value written as a text: a color if it starts with `#` and can be read, and a reference
otherwise. -/
def ofText (s : String) : ColorValue :=
  if s.toList.head? = some '#' then
    match Color.ofHex s with
    | .ok color => literal color
    | .error _ => reference s
  else reference s

end ColorValue

/-- The default values of a named color; `none` means no default for that kind of theme. -/
structure ColorDefaults where
  dark : Option ColorValue := none
  light : Option ColorValue := none
  highContrast : Option ColorValue := none

namespace ColorDefaults

/-- The same default for every kind of theme. -/
def all (value : ColorValue) : ColorDefaults := ⟨some value, some value, some value⟩

/-- The default for a kind of theme. -/
def get (defaults : ColorDefaults) : ThemeKind → Option ColorValue
  | .dark => defaults.dark
  | .light => defaults.light
  | .highContrast => defaults.highContrast

end ColorDefaults

end Highlight
