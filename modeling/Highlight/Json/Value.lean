import Highlight.Text.Quoted

/-!
# JSON values

The values of JSON documents that the library writes, and their compact text: no blanks, fields in
the order given. In strings the quote, the backslash and control characters are escaped; every other
character stands for itself.
-/

namespace Highlight

/-- A JSON value with whole numbers only. -/
inductive Json where
  | null
  | bool (value : Bool)
  | int (value : Int)
  | text (value : String)
  | list (items : List Json)
  | record (fields : List (String × Json))
  deriving Inhabited

namespace Json

/-- A list of texts. -/
def texts (items : List String) : Json := list (items.map text)

/-- A value that may be missing. -/
def option {α : Type} (write : α → Json) : Option α → Json
  | none => null
  | some value => write value

/-- How one character is written inside a string. -/
def escapedChar (c : Char) : List Char :=
  if c = '"' then ['\\', '"']
  else if c = '\\' then ['\\', '\\']
  else if c = '\n' then ['\\', 'n']
  else if c = '\r' then ['\\', 'r']
  else if c = '\t' then ['\\', 't']
  else if c = '\x08' then ['\\', 'b']
  else if c = '\x0c' then ['\\', 'f']
  else if c.toNat < 0x20 then
    let digits := Text.hexDigits c.toNat
    ['\\', 'u'] ++ List.replicate (4 - digits.length) '0' ++ digits
  else [c]

/-- A string with its quotes. -/
def quotedText (s : String) : String :=
  String.ofList ('"' :: s.toList.flatMap escapedChar ++ ['"'])

mutual

/-- The compact text of a value. -/
def compact : Json → String
  | null => "null"
  | bool value => if value then "true" else "false"
  | int value => toString value
  | text value => quotedText value
  | list items => "[" ++ ",".intercalate (compactItems items) ++ "]"
  | record fields => "\x7b" ++ ",".intercalate (compactFields fields) ++ "\x7d"

/-- The compact texts of the items of a list. -/
def compactItems : List Json → List String
  | [] => []
  | item :: rest => compact item :: compactItems rest

/-- The compact texts of the fields of a record. -/
def compactFields : List (String × Json) → List String
  | [] => []
  | (name, value) :: rest => (quotedText name ++ ":" ++ compact value) :: compactFields rest

end

end Json

end Highlight
