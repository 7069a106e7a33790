import Highlight.FontStyle
import Highlight.ThemeKind

/-!
# Styles

A style says how text looks: its two colors and its font style. An override states some of these
and leaves the others as they are.
-/

namespace Highlight

/-- How text looks. -/
structure Style where
  foreground : Color
  background : Color
  fontStyle : FontStyle
  deriving DecidableEq, Repr

/-- Changes to a style; what is `none` stays as it is. -/
structure StyleOverride where
  foreground : Option Color := none
  background : Option Color := none
  fontStyle : Option FontStyle := none
  deriving DecidableEq, Repr

/-- The style of a theme kind without any colors of its own. -/
def Style.fallback (kind : ThemeKind) : Style :=
  ⟨kind.fallbackColors.1, kind.fallbackColors.2, FontStyle.none⟩

/-- Applies the changes to a style. -/
def StyleOverride.apply (change : StyleOverride) (style : Style) : Style where
  foreground := change.foreground.getD style.foreground
  background := change.background.getD style.background
  fontStyle := change.fontStyle.getD style.fontStyle

end Highlight
