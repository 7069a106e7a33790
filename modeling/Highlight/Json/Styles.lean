import Highlight.Json.Record
import Highlight.Json.Value
import Highlight.Style
import Highlight.Token.Metadata

/-!
# Documents of styles

How colors, styles and metadata words are stored as JSON. Reading a stored value gives it back; a
font style keeps all bits of its byte.
-/

namespace Highlight

open Json Reader

/-! ### Colors -/

namespace Color

/-- Reads a color stored by its four channels. -/
def reader : Reader Color :=
  record "Color"
    [field "r" .refused byte fun c red => { c with red },
     field "g" .refused byte fun c green => { c with green },
     field "b" .refused byte fun c blue => { c with blue },
     field "a" .refused byte fun c alpha => { c with alpha }]
    black

/-- Stores a color. -/
def toJson (c : Color) : Json :=
  .record [("r", .int c.red.toNat), ("g", .int c.green.toNat), ("b", .int c.blue.toNat),
    ("a", .int c.alpha.toNat)]

end Color

/-! ### Styles -/

namespace FontStyle

/-- Reads a font style stored by its bits. -/
def reader : Reader FontStyle :=
  record "FontStyle" [field "bits" .refused byte fun _ bits => ⟨bits⟩] FontStyle.none

/-- Stores a font style. -/
def toJson (style : FontStyle) : Json := .record [("bits", .int style.bits.toNat)]

end FontStyle

namespace Style

/-- Reads a stored style. -/
def reader : Reader Style :=
  record "Style"
    [field "foreground" .refused Color.reader fun s foreground => { s with foreground },
     field "background" .refused Color.reader fun s background => { s with background },
     field "font_style" .refused FontStyle.reader fun s fontStyle => { s with fontStyle }]
    (fallback .dark)

/-- Stores a style. -/
def toJson (style : Style) : Json :=
  .record [("foreground", style.foreground.toJson), ("background", style.background.toJson),
    ("font_style", style.fontStyle.toJson)]

end Style

namespace StyleOverride

/-- Reads stored changes to a style. -/
def reader : Reader StyleOverride :=
  record "StyleModifier"
    [field "foreground" .onlyInMaps (optional Color.reader)
       fun s foreground => { s with foreground },
     field "background" .onlyInMaps (optional Color.reader)
       fun s background => { s with background },
     field "font_style" .onlyInMaps (optional FontStyle.reader)
       fun s fontStyle => { s with fontStyle }]
    {}

/-- Stores changes to a style. -/
def toJson (change : StyleOverride) : Json :=
  .record [("foreground", Json.option Color.toJson change.foreground),
    ("background", Json.option Color.toJson change.background),
    ("font_style", Json.option FontStyle.toJson change.fontStyle)]

end StyleOverride

/-! ### Kinds -/

namespace ThemeKind

/-- The name of a kind in documents. -/
def name : ThemeKind → String
  | light => "Light"
  | dark => "Dark"
  | highContrast => "HighContrast"

/-- Reads the name of a kind. -/
def reader : Reader ThemeKind :=
  variant ([light, dark, highContrast].map fun kind => (kind.name, kind))

/-- Stores a kind by its name. -/
def toJson (kind : ThemeKind) : Json := .text kind.name

end ThemeKind

namespace TokenKind

/-- Reads the name of a kind. -/
def reader : Reader TokenKind :=
  variant ([other, comment, string, regex].map fun kind => (kind.name, kind))

/-- Stores a kind by its name. -/
def toJson (kind : TokenKind) : Json := .text kind.name

end TokenKind

/-! ### Words -/

namespace LanguageId

/-- Reads a language number. -/
def reader : Reader LanguageId := LanguageId.mk <$> byte

/-- Stores a language number. -/
def toJson (language : LanguageId) : Json := .int language.value.toNat

end LanguageId

namespace Metadata

/-- Reads a metadata word. -/
def reader : Reader Metadata := Metadata.mk <$> word

/-- Stores a metadata word. -/
def toJson (m : Metadata) : Json := .int m.bits.toNat

end Metadata

end Highlight
