import Highlight.FontStyle
import Highlight.Token.Kind

/-!
# Metadata words

The look of a run of text is packed into a word of 32 bits. From the least significant bit on it
holds the language (8 bits), the token kind (3), the font style (3), the foreground index (9) and
the background index (9). Index 0 stands for no color, 1 and 2 for the default foreground and
background.
-/

namespace Highlight

/-- The number of a language, as it is packed into words. -/
structure LanguageId where
  value : UInt8
  deriving DecidableEq, Repr

/-- How a language number is described. -/
def LanguageId.describe (language : LanguageId) : String :=
  "LanguageId(" ++ toString language.value.toNat ++ ")"

/-- A packed metadata word. -/
structure Metadata where
  bits : UInt32
  deriving DecidableEq, Repr

namespace Metadata

/-- The color index of the default foreground. -/
def defaultForeground : Nat := 1

/-- The color index of the default background. -/
def defaultBackground : Nat := 2

/-- The greatest color index that fits. -/
def maxColorIndex : Nat := 511

/-- The word of the given fields, as a natural number. Font flags and color indices that do not fit
lose their upper bits. -/
def packed (language : LanguageId) (kind : TokenKind) (font : FontStyle)
    (foreground background : Nat) : Nat :=
  language.value.toNat + 256 * kind.code + 2048 * (font.bits.toNat % 8) +
    16384 * (foreground % 512) + 8388608 * (background % 512)

/-- Packs the fields into a word. -/
def pack (language : LanguageId) (kind : TokenKind) (font : FontStyle)
    (foreground background : Nat) : Metadata :=
  ⟨(packed language kind font foreground background).toUInt32⟩

/-- The word of text without any styling of its own. -/
def plain (language : LanguageId) : Metadata :=
  pack language .other FontStyle.none defaultForeground defaultBackground

/-- The field whose least bit has the given weight and which takes values below `size`. -/
def field (m : Metadata) (weight size : Nat) : Nat := m.bits.toNat / weight % size

/-- The packed language. -/
def language (m : Metadata) : LanguageId := ⟨(m.field 1 256).toUInt8⟩

/-- The packed token kind. -/
def kind (m : Metadata) : TokenKind := TokenKind.ofCode (m.field 256 8)

/-- The packed font style. -/
def fontStyle (m : Metadata) : FontStyle := ⟨(m.field 2048 8).toUInt8⟩

/-- The packed foreground index. -/
def foreground (m : Metadata) : Nat := m.field 16384 512

/-- The packed background index. -/
def background (m : Metadata) : Nat := m.field 8388608 512

/-- The same look in another language. -/
def withLanguage (m : Metadata) (language : LanguageId) : Metadata :=
  ⟨(m.bits.toNat / 256 * 256 + language.value.toNat).toUInt32⟩

/-- How a word is described, field by field. -/
def describe (m : Metadata) : String :=
  "TokenMetadata \x7b language: " ++ toString m.language.value.toNat ++
    ", token_type: " ++ m.kind.name ++
    ", font_style: " ++ toString m.fontStyle.bits.toNat ++
    ", foreground: " ++ toString m.foreground ++
    ", background: " ++ toString m.background ++ " \x7d"

end Metadata

end Highlight
