import Highlight.Value.Basic

/-!
# Resolving color values

A value is resolved against a theme. References are followed through the theme, which may look up
the default of a registered color and resolve that in turn; the meter counts the references that are
open at a time. More than `maxReferences` of them are taken for a cycle and give no color. Each
reference takes its count back when it is done, so references that stand side by side do not use up
each other's room.
-/

namespace Highlight

/-- How many references may be open at a time. -/
def maxReferences : Nat := 64

/-- Looks an identifier up in the theme, unless too many references are open. -/
def ThemeView.follow (theme : ThemeView) (id : String) : Metered (Option Color) := do
  modify (· + 1)
  let found ← if (← get) > maxReferences then pure none else theme.color id
  modify (· - 1)
  return found

namespace Color

/-- Moves a color towards a background by `factor`, lighter if it is darker than the background and
darker otherwise, and scales its opacity. Without a background only the opacity is scaled, by both
numbers. -/
def lessProminent (color : Color) (background : Option Color) (factor transparency : Float) :
    Color :=
  match background with
  | none => color.transparent (factor * transparency)
  | some background =>
    let moved :=
      if color.isDarkerThan background then color.lightenTowards background factor
      else color.darkenTowards background factor
    moved.transparent transparency

end Color

namespace ColorValue

mutual

/-- The color of a value in a theme. -/
def resolve (theme : ThemeView) : ColorValue → Metered (Option Color)
  | literal color => pure (some color)
  | reference id =>
    if id.toList.head? = some '#' then pure (Color.ofHex id).toOption else theme.follow id
  | darken value factor => do return (← resolve theme value).map (·.darken factor)
  | lighten value factor => do return (← resolve theme value).map (·.lighten factor)
  | transparent value factor => do return (← resolve theme value).map (·.transparent factor)
  | oneOf values => resolveFirst theme values
  | lessProminent value background factor transparency => do
    match ← resolve theme value with
    | none => return none
    | some color =>
      return some (color.lessProminent (← resolve theme background) factor transparency)
  | custom compute => compute theme

/-- The color of the first value that gives one; the values behind it are not looked at. -/
def resolveFirst (theme : ThemeView) : List ColorValue → Metered (Option Color)
  | [] => pure none
  | value :: rest => do
    match ← resolve theme value with
    | none => resolveFirst theme rest
    | some color => return some color

end

end ColorValue

end Highlight
