import Highlight.Token.Metadata

/-!
# Tokens of a line

A grammar reports where tokens start, counted in characters, and is not trusted with it: starts may
be negative or go backwards. Corrected starts begin at 0 and never decrease; every token but the
first starts at least where it was reported to.

In the encoded form of a line only the runs of equal metadata are kept, each by its start and its
word. Moved starts stay within 64 bits there, and starts that do not fit 32 bits become the greatest
number that does. In the classic form starts are moved by a sum of 64 bits that may wrap around.
-/

namespace Highlight

/-- A language: its name and its number. -/
structure Language where
  name : String
  id : LanguageId
  deriving DecidableEq, Repr

/-- A token as a grammar reports it. -/
structure RawToken where
  start : Int64
  /-- The scope path, outermost scope first. -/
  scopes : String
  deriving DecidableEq

/-- A token with its corrected start. -/
structure Token where
  start : UInt64
  scopes : String
  language : String
  deriving DecidableEq, Repr

/-- A run of text with one look, in encoded form. -/
structure Run where
  start : UInt32
  metadata : Metadata
  deriving DecidableEq, Repr

/-! ### Corrected starts -/

/-- The start of a token behind one that starts at `previous`. -/
def correctedStart (previous : UInt64) (reported : Int64) : UInt64 :=
  if reported < previous.toInt64 then previous else reported.toUInt64

/-- Corrects the starts of tokens behind one that starts at `previous`. -/
def correctedFrom (previous : UInt64) : List RawToken → List (UInt64 × RawToken)
  | [] => []
  | token :: rest =>
    let start := correctedStart previous token.start
    (start, token) :: correctedFrom start rest

/-- Corrects the starts of the tokens of a line. -/
def corrected : List RawToken → List (UInt64 × RawToken)
  | [] => []
  | token :: rest => (0, token) :: correctedFrom 0 rest

/-- The tokens of a line with their corrected starts, moved by `delta`. -/
def classicTokens (language : Language) (delta : UInt64) (tokens : List RawToken) : List Token :=
  (corrected tokens).map fun (start, token) => ⟨start + delta, token.scopes, language.name⟩

/-! ### Runs -/

/-- A sum that stays at the greatest number of 64 bits instead of wrapping around. -/
def saturatingAdd (start delta : UInt64) : UInt64 :=
  let sum := start + delta
  if sum < start then 18446744073709551615 else sum

/-- A start in encoded form. -/
def encodedStart (start : UInt64) : UInt32 :=
  if start.toNat < UInt32.size then start.toUInt32 else 4294967295

/-- The runs of tokens behind one with the word `previous`. A token with the same word as the one
before it continues its run. -/
def runsFrom (word : String → Metadata) (delta : UInt64) (previous : Option Metadata) :
    List (UInt64 × RawToken) → List Run
  | [] => []
  | (start, token) :: rest =>
    let metadata := word token.scopes
    if previous = some metadata then runsFrom word delta previous rest
    else
      ⟨encodedStart (saturatingAdd start delta), metadata⟩ ::
        runsFrom word delta (some metadata) rest

/-- The runs of a line. -/
def encodedRuns (word : String → Metadata) (delta : UInt64) (tokens : List RawToken) : List Run :=
  runsFrom word delta none (corrected tokens)

namespace Run

/-- The words of runs: start and metadata in turn. -/
def toWords (runs : List Run) : List UInt32 :=
  runs.flatMap fun run => [run.start, run.metadata.bits]

/-- The runs of words; a start without metadata behind it is left out. -/
def ofWords : List UInt32 → List Run
  | start :: bits :: rest => ⟨start, ⟨bits⟩⟩ :: ofWords rest
  | _ => []

end Run

end Highlight
