import Highlight.Text.Graphic
import Highlight.Text.Hexadecimal

/-!
# Quoted text

Text shown inside a description stands between double quotes. The quote and the backslash are
escaped by a backslash, four control characters have a letter of their own, and any other character
that is not graphic is written by its code point in hexadecimal. All other characters stand for
themselves.
-/

namespace Highlight.Text

/-- How one character is written between quotes. -/
def quotedChar (c : Char) : List Char :=
  if c = '"' then ['\\', '"']
  else if c = '\\' then ['\\', '\\']
  else if c = '\n' then ['\\', 'n']
  else if c = '\t' then ['\\', 't']
  else if c = '\r' then ['\\', 'r']
  else if c = '\x00' then ['\\', '0']
  else if isGraphic c then [c]
  else ['\\', 'u', '\x7b'] ++ hexDigits c.toNat ++ ['\x7d']

/-- The text between double quotes. -/
def quoted (s : String) : String :=
  String.ofList ('"' :: s.toList.flatMap quotedChar ++ ['"'])

/-- Quoted texts in brackets, separated by a comma and a space. -/
def quotedList (items : List String) : String :=
  "[" ++ ", ".intercalate (items.map quoted) ++ "]"

end Highlight.Text
