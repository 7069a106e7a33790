import Highlight.Style
import Highlight.Text.Blank

/-!
# Theme rules

A rule changes the style of the tokens that its scope selects. The scope is a comma list; each part
selects by its last word, and parts without a word select nothing. A selector applies to a scope
that is equal to it or continues it behind a dot. When several do, the longest wins.
-/

namespace Highlight

/-- A scope and the changes it makes. -/
structure Rule where
  scope : String
  change : StyleOverride
  deriving DecidableEq, Repr

/-- The selectors of a comma list. -/
def selectorsOf (scope : String) : List String :=
  (Text.piecesAt ',' scope).filterMap fun part => (Text.words part).getLast?

/-- The selectors of a rule. -/
def Rule.selectors (rule : Rule) : List String := selectorsOf rule.scope

/-- The texts before each dot of a scope, and the scope itself, from the shortest on. -/
def dottedHeads : List Char → List (List Char)
  | [] => [[]]
  | c :: cs =>
    let longer := (dottedHeads cs).map (c :: ·)
    if c = '.' then [] :: longer else longer

/-- The selectors that apply to a scope, from the longest on. -/
def selectorsFor (scope : String) : List String :=
  (dottedHeads scope.toList).reverse.map String.ofList

end Highlight
