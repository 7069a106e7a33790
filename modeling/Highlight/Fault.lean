import Highlight.Color.Hex
import Highlight.Json.Fault

/-!
# Faults

Everything that can go wrong, by its cause. The wording is given in one place; faults of files and
documents stand on an underlying cause, the others on their own.
-/

namespace Highlight

/-- Why a file could not be read. -/
inductive FileFault where
  | notFound
  deriving DecidableEq, Repr

/-- The wording of a file fault. -/
def FileFault.message : FileFault → String
  | notFound => "No such file or directory (os error 2)"

/-- Why something could not be done. -/
inductive Fault where
  /-- A theme file could not be read. -/
  | file (cause : FileFault)
  /-- A theme document could not be read. -/
  | document (cause : Json.Fault)
  /-- A text is no color. -/
  | color (value : String) (cause : HexFault)
  /-- There is no tokenizer for a language. -/
  | noTokenizer (language : String)
  /-- The work was cancelled. -/
  | cancelled

namespace Fault

/-- The wording of a fault. Documents that are malformed or truncated have no fixed wording. -/
def message? : Fault → Option String
  | file cause => some ("I/O error: " ++ cause.message)
  | document (.mismatch cause) => some ("JSON parsing error: " ++ cause.message)
  | document _ => none
  | color value cause => some ("invalid hex color '" ++ value ++ "': " ++ cause.message)
  | noTokenizer language => some ("no tokenization provider for language '" ++ language ++ "'")
  | cancelled => some "operation cancelled"

/-- Whether there is an underlying cause to ask for. -/
def hasCause : Fault → Bool
  | file _ | document _ => true
  | color _ _ | noTokenizer _ | cancelled => false

end Fault

/-- Reads a color, keeping the text that is none. -/
def Color.parse (s : String) : Except Fault Color := (Color.ofHex s).mapError (.color s)

end Highlight
