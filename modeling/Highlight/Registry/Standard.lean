import Highlight.Registry.Subscription

/-!
# The standard colors

The base colors of a workbench: general ones, those of the editor, of its widgets and of buttons.
Their defaults refer only to each other.
-/

namespace Highlight.StandardColor

/-! ### Identifiers -/

def foreground : String := "foreground"
def errorForeground : String := "errorForeground"
def descriptionForeground : String := "descriptionForeground"
def focusBorder : String := "focusBorder"
def contrastBorder : String := "contrastBorder"
def contrastActiveBorder : String := "contrastActiveBorder"

def editorBackground : String := "editor.background"
def editorForeground : String := "editor.foreground"
def editorSelectionBackground : String := "editor.selectionBackground"
def editorInactiveSelectionBackground : String := "editor.inactiveSelectionBackground"
def editorSelectionHighlightBackground : String := "editor.selectionHighlightBackground"
def editorFindMatchBackground : String := "editor.findMatchBackground"
def editorFindMatchHighlightBackground : String := "editor.findMatchHighlightBackground"
def editorLineNumberForeground : String := "editorLineNumber.foreground"
def editorActiveLineNumberForeground : String := "editorLineNumber.activeForeground"

def editorWidgetBackground : String := "editorWidget.background"
def editorWidgetBorder : String := "editorWidget.border"
def editorHoverBackground : String := "editorHoverWidget.background"
def editorHoverBorder : String := "editorHoverWidget.border"

def buttonForeground : String := "button.foreground"
def buttonBackground : String := "button.background"
def buttonHoverBackground : String := "button.hoverBackground"

/-! ### Contributions -/

/-- An opaque color given by its three channels in one number. -/
def hex (code : Nat) : ColorValue :=
  .literal (Color.rgb (code / 0x10000).toUInt8 (code / 0x100).toUInt8 code.toUInt8)

/-- The color of another identifier. -/
def same (id : String) : ColorValue := .reference id

/-- Defaults for the three kinds of themes. -/
def defaults (dark light highContrast : ColorValue) : ColorDefaults :=
  ⟨some dark, some light, some highContrast⟩

/-- Defaults for dark and light themes only. -/
def plainDefaults (dark light : ColorValue) : ColorDefaults := ⟨some dark, some light, none⟩

/-- A default for themes of high contrast only. -/
def contrastDefault (highContrast : ColorValue) : ColorDefaults :=
  ⟨none, none, some highContrast⟩

/-- The general colors. -/
def base : List Contribution :=
  [{ id := foreground
     description := "Overall foreground color, used when not overridden by a component."
     defaults := defaults (hex 0xCCCCCC) (hex 0x616161) (.literal Color.white) },
   { id := errorForeground
     description := "Overall foreground color for error messages."
     defaults := defaults (hex 0xF48771) (hex 0xA1260D) (hex 0xF48771) },
   { id := descriptionForeground
     description := "Foreground color for description text providing additional information."
     defaults :=
       defaults (.transparent (same foreground) 0.7) (hex 0x717171)
         (.transparent (same foreground) 0.7) },
   { id := focusBorder
     description := "Overall border color for focused elements."
     defaults := defaults (hex 0x007FD4) (hex 0x0090F1) (hex 0xF38518) },
   { id := contrastBorder
     description :=
       "An extra border around elements to separate them from others for greater contrast."
     defaults := contrastDefault (hex 0x6FC3DF) },
   { id := contrastActiveBorder
     description :=
       "An extra border around active elements to separate them from others for greater contrast."
     defaults := contrastDefault (same focusBorder) }]

/-- How a highlighted selection follows from the selection itself. -/
def softSelection : ColorValue :=
  .lessProminent (same editorSelectionBackground) (same editorBackground) 0.3 0.6

/-- The colors of the editor. -/
def editor : List Contribution :=
  [{ id := editorBackground
     description := "Editor background color."
     defaults := defaults (hex 0x1E1E1E) (hex 0xFFFFFE) (.literal Color.black) },
   { id := editorForeground
     description := "Editor default foreground color."
     defaults := defaults (hex 0xD4D4D4) (hex 0x333333) (.literal Color.white) },
   { id := editorSelectionBackground
     description := "Color of the editor selection."
     defaults := defaults (hex 0x264F78) (hex 0xADD6FF) (hex 0xF3F518) },
   { id := editorInactiveSelectionBackground
     description := "Color of the selection in an inactive editor."
     defaults := ColorDefaults.all (.transparent (same editorSelectionBackground) 0.5)
     needsTransparency := true },
   { id := editorSelectionHighlightBackground
     description := "Color for regions with the same content as the selection."
     defaults := defaults softSelection softSelection (.literal ⟨0, 0, 0, 0⟩)
     needsTransparency := true },
   { id := editorFindMatchBackground
     description := "Color of the current search match."
     defaults := plainDefaults (hex 0x515C6A) (hex 0xA8AC94) },
   { id := editorFindMatchHighlightBackground
     description := "Color of the other search matches."
     defaults :=
       plainDefaults (.literal ⟨0xEA, 0x5C, 0x00, 0x55⟩) (.literal ⟨0xEA, 0x5C, 0x00, 0x55⟩)
     needsTransparency := true },
   { id := editorLineNumberForeground
     description := "Color of editor line numbers."
     defaults := defaults (hex 0x858585) (hex 0x237893) (.literal Color.white) },
   { id := editorActiveLineNumberForeground
     description := "Color of the editor active line number."
     defaults :=
       defaults (hex 0xC6C6C6) (hex 0x0B216F)
         (.oneOf [same contrastActiveBorder, same editorLineNumberForeground]) }]

/-- The colors of the widgets of the editor. -/
def widgets : List Contribution :=
  [{ id := editorWidgetBackground
     description := "Background color of editor widgets, such as find/replace."
     defaults := defaults (hex 0x252526) (hex 0xF3F3F3) (hex 0x0C141F) },
   { id := editorWidgetBorder
     description := "Border color of editor widgets."
     defaults := defaults (hex 0x454545) (hex 0xC8C8C8) (same contrastBorder) },
   { id := editorHoverBackground
     description := "Background color of the editor hover."
     defaults := ColorDefaults.all (same editorWidgetBackground) },
   { id := editorHoverBorder
     description := "Border color of the editor hover."
     defaults := ColorDefaults.all (same editorWidgetBorder) }]

/-- The colors of buttons. -/
def buttons : List Contribution :=
  [{ id := buttonForeground
     description := "Button foreground color."
     defaults := ColorDefaults.all (.literal Color.white) },
   { id := buttonBackground
     description := "Button background color."
     defaults := plainDefaults (hex 0x0E639C) (hex 0x007ACC) },
   { id := buttonHoverBackground
     description := "Button background color when hovering."
     defaults :=
       plainDefaults (.lighten (same buttonBackground) 0.2)
         (.darken (same buttonBackground) 0.2) }]

/-- All standard colors, in the order of their registration. -/
def all : List Contribution := base ++ editor ++ widgets ++ buttons

/-- Registers the standard colors in order, announcing each. -/
def register {L W : Type} (react : WatchedRegistry.Reaction L W) :
    StateM (WatchedRegistry L × W) Unit :=
  all.forM fun contribution => do
    let _ ← WatchedRegistry.register react contribution

end Highlight.StandardColor
