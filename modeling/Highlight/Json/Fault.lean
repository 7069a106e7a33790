import Highlight.Json.Number
import Highlight.Text.Quoted

/-!
# Faults of documents

A document is read from left to right and the first fault ends the reading. Either the text is no
JSON at all, or it ends too soon, or what it says is not what was asked for. Only faults of the last
kind are worded; of the others it is enough to know that they are there.
-/

namespace Highlight.Json

/-- What was found where something else was expected. -/
inductive Found where
  | null
  | bool (value : Bool)
  | int (value : Int)
  | float (value : Float)
  | text (value : String)
  | sequence
  | map

/-- How something found is named. -/
def Found.describe : Found → String
  | null => "null"
  | bool value => "boolean `" ++ (if value then "true" else "false") ++ "`"
  | int value => "integer `" ++ toString value ++ "`"
  | float value => "floating point `" ++ numberLayout.render value ++ "`"
  | text value => "string " ++ Text.quoted value
  | sequence => "sequence"
  | map => "map"

/-- The number that was found. -/
def Found.ofNumber : Number → Found
  | .int value => .int value
  | .float value => .float value

/-- Why a document in proper JSON is not what was asked for. -/
inductive Mismatch where
  /-- A field that has to be there is missing. -/
  | missingField (name : String)
  /-- A field occurs twice. -/
  | duplicateField (name : String)
  /-- A value is of another type. -/
  | invalidType (found : Found) (expected : String)
  /-- A value is of the right type, and out of range. -/
  | invalidValue (found : Found) (expected : String)
  /-- A sequence ends too soon. -/
  | invalidLength (length : Nat) (expected : String)
  /-- A name is none of those allowed. -/
  | unknownVariant (name : String) (allowed : List String)

/-- The wording of a mismatch. -/
def Mismatch.message : Mismatch → String
  | missingField name => "missing field `" ++ name ++ "`"
  | duplicateField name => "duplicate field `" ++ name ++ "`"
  | invalidType found expected =>
    "invalid type: " ++ found.describe ++ ", expected " ++ expected
  | invalidValue found expected =>
    "invalid value: " ++ found.describe ++ ", expected " ++ expected
  | invalidLength length expected =>
    "invalid length " ++ toString length ++ ", expected " ++ expected
  | unknownVariant name allowed =>
    "unknown variant `" ++ name ++ "`, expected one of " ++
      ", ".intercalate (allowed.map fun variant => "`" ++ variant ++ "`")

/-- Why a document could not be read. -/
inductive Fault where
  /-- The text is no JSON. -/
  | malformed
  /-- The text ends too soon. -/
  | truncated
  /-- The text says something else than was asked for. -/
  | mismatch (cause : Mismatch)

end Highlight.Json
