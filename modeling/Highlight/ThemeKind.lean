import Highlight.Color.Basic

/-!
# Kinds of themes

Every theme is light, dark or of high contrast. The kind decides which default a registered color
has and which colors stand in for missing editor colors.
-/

namespace Highlight

/-- The kind of a theme. -/
inductive ThemeKind where
  | light
  | dark
  | highContrast
  deriving DecidableEq, Repr, Inhabited

namespace ThemeKind

/-- The spellings of each kind other than dark, in lower case. -/
def spellings : List (String × ThemeKind) :=
  [("light", light), ("vs", light), ("hc", highContrast), ("hc-black", highContrast),
   ("high-contrast", highContrast), ("hc-light", highContrast)]

/-- The kind that a text names, without regard to the case of ASCII letters. Any other text means
dark. -/
def ofText (s : String) : ThemeKind :=
  (spellings.lookup (s.map Char.toLower)).getD dark

/-- The foreground and background that stand in for missing editor colors. -/
def fallbackColors : ThemeKind → Color × Color
  | light => (Color.rgb 0x33 0x33 0x33, Color.rgb 0xFF 0xFF 0xFE)
  | dark => (Color.rgb 0xD4 0xD4 0xD4, Color.rgb 0x1E 0x1E 0x1E)
  | highContrast => (Color.white, Color.black)

end ThemeKind

end Highlight
