import Highlight.Registry.Standard
import Highlight.Rule.Table
import Highlight.Value.Resolve

/-!
# Themes

A theme has a kind, colors of its own and token rules. Attached to a registry it also answers for
registered colors, by their defaults for its kind; these may refer to further colors, which are
asked of the theme again. Its own colors always come first.

The meter of `Metered` bounds how many references are open at a time. A custom computation may ask
the theme without opening a reference. Between two references there are at most as many such
questions as the registry has colors, unless they go round in a circle, and then there is no color.
The number of open questions is therefore bounded as well, by `questionBound`.
-/

namespace Highlight

/-- A theme. -/
structure Theme where
  name : String := ""
  kind : ThemeKind := .dark
  /-- The colors that the theme defines itself. -/
  colors : Std.HashMap String Color := {}
  /-- Changes to the style of text that no rule applies to. -/
  baseline : StyleOverride := {}
  rules : List Rule := []
  /-- The registry whose defaults stand in for colors that the theme does not define. -/
  registry : Option ColorRegistry := none

namespace Theme

/-- Defines a color. -/
def withColor (theme : Theme) (id : String) (color : Color) : Theme :=
  { theme with colors := theme.colors.insert id color }

/-- Adds a rule behind all others. -/
def withRule (theme : Theme) (rule : Rule) : Theme :=
  { theme with rules := theme.rules ++ [rule] }

/-- Attaches the theme to a registry. -/
def attach (theme : Theme) (registry : ColorRegistry) : Theme :=
  { theme with registry := some registry }

/-- Whether the theme itself defines a color. -/
def defines (theme : Theme) (id : String) : Bool := theme.colors.contains id

/-- The default value that stands in for a color the theme does not define. -/
def default? (theme : Theme) (id : String) : Option ColorValue :=
  theme.registry.bind fun registry => registry.default? theme.kind id

/-- How many questions may be open at a time: for every open reference, as many as the registry has
colors, and two more. -/
def questionBound (theme : Theme) : Nat :=
  (maxReferences + 1) * ((theme.registry.map (·.size)).getD 0 + 2)

/-- The color of an identifier: the theme's own, or else what its default resolves to. The first
argument bounds how many further questions may be open. -/
def colorWithin (theme : Theme) : Nat → String → Metered (Option Color)
  | 0, _ => pure none
  | bound + 1, id =>
    match theme.colors[id]? with
    | some color => pure (some color)
    | none =>
      match theme.default? id with
      | none => pure none
      | some value => value.resolve ⟨theme.kind, colorWithin theme bound⟩

/-- What color values see of the theme. -/
def view (theme : Theme) : ThemeView := ⟨theme.kind, theme.colorWithin theme.questionBound⟩

/-- The color of an identifier, inside of no reference. -/
def color? (theme : Theme) (id : String) : Option Color := ((theme.view.color id).run 0).1

/-- The color of a value, inside of no reference. -/
def resolve (theme : Theme) (value : ColorValue) : Option Color :=
  ((value.resolve theme.view).run 0).1

/-- The color that a registry gives an identifier by default in the theme. -/
def defaultIn (theme : Theme) (registry : ColorRegistry) (id : String) : Option Color :=
  (registry.default? theme.kind id).bind theme.resolve

/-- The style of text that no rule applies to: the editor colors, or those of the theme kind, with
the changes of the rules without scope. -/
def defaultStyle (theme : Theme) : Style :=
  let fallback := Style.fallback theme.kind
  theme.baseline.apply
    { fallback with
      foreground := (theme.color? StandardColor.editorForeground).getD fallback.foreground
      background := (theme.color? StandardColor.editorBackground).getD fallback.background }

/-- The compiled rules of the theme. -/
def ruleTable (theme : Theme) : RuleTable := RuleTable.ofRules theme.defaultStyle theme.rules

end Theme

end Highlight
