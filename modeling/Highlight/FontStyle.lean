/-!
# Font styles

A font style is a set of flags in a byte. Three bits have a meaning: italic, bold and underline.
Styles built from texts or truncated bits hold those bits only; a style read from a document keeps
every bit of its byte.
-/

namespace Highlight

/-- A set of font flags. -/
structure FontStyle where
  bits : UInt8
  deriving DecidableEq, Hashable, Repr

namespace FontStyle

/-- No flag at all. -/
def none : FontStyle := ⟨0⟩

/-- Slanted letters. -/
def italic : FontStyle := ⟨1⟩

/-- Heavy letters. -/
def bold : FontStyle := ⟨2⟩

/-- A line under the letters. -/
def underline : FontStyle := ⟨4⟩

/-- The style of the three known bits of a byte. -/
def ofBits (bits : UInt8) : FontStyle := ⟨bits &&& 7⟩

/-- Whether no flag is set. -/
def isEmpty (style : FontStyle) : Bool := style.bits == 0

/-- Whether every flag of `other` is set. -/
def contains (style other : FontStyle) : Bool := style.bits &&& other.bits == other.bits

/-- The flags of both styles. -/
def union (style other : FontStyle) : FontStyle := ⟨style.bits ||| other.bits⟩

/-- Whether `part` occurs in a text without gaps. -/
def occursIn (part : List Char) : List Char → Bool
  | [] => part.isEmpty
  | c :: cs => part.isPrefixOf (c :: cs) || occursIn part cs

/-- The style that a text asks for: each flag whose name occurs anywhere in it. -/
def ofText (s : String) : FontStyle :=
  let flag (name : String) (style : FontStyle) : FontStyle :=
    if occursIn name.toList s.toList then style else none
  ((flag "bold" bold).union (flag "italic" italic)).union (flag "underline" underline)

/-- The flags with their style sheet declarations, in the order in which they are written. -/
def declarations : List (FontStyle × String) :=
  [(italic, "font-style: italic;"), (bold, "font-weight: bold;"),
   (underline, "text-decoration: underline;")]

/-- The style sheet declarations of the flags that are set. -/
def css (style : FontStyle) : List String :=
  (declarations.filter fun entry => style.contains entry.1).map (·.2)

end FontStyle

end Highlight
