import Highlight.Text.Blank

/-!
# Token kinds

A token is told apart as comment, string, regular expression or anything else. The kind is inferred
from the scope path: scopes are words, outermost first, and each is cut at dots into segments. The
innermost scope with a telling segment decides, by its first such segment.
-/

namespace Highlight

/-- What a token is, as far as editors treat it specially. -/
inductive TokenKind where
  | other
  | comment
  | string
  | regex
  deriving DecidableEq, Repr, Inhabited

namespace TokenKind

/-- The three bits of a kind. -/
def code : TokenKind → Nat
  | other => 0
  | comment => 1
  | string => 2
  | regex => 4

/-- The kind of three bits; combinations without a meaning stand for any other token. -/
def ofCode : Nat → TokenKind
  | 1 => comment
  | 2 => string
  | 4 => regex
  | _ => other

/-- The name of a kind in descriptions and documents. -/
def name : TokenKind → String
  | other => "Other"
  | comment => "Comment"
  | string => "String"
  | regex => "RegEx"

/-- The kind that a segment of a scope tells, if it tells one. -/
def ofSegment? (segment : List Char) : Option TokenKind :=
  if segment = "comment".toList then some comment
  else if segment = "string".toList then some string
  else if segment = "regex".toList ∨ segment = "regexp".toList then some regex
  else none

/-- The kind that a scope tells: that of its first telling segment. -/
def ofScope? (scope : List Char) : Option TokenKind :=
  (Text.pieces (· == '.') scope).findSome? ofSegment?

/-- The kind told by the innermost telling scope of a path. -/
def ofScopes (scopes : String) : TokenKind :=
  ((Text.wordsOf scopes.toList).reverse.findSome? ofScope?).getD other

end TokenKind

end Highlight
