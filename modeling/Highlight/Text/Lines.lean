/-!
# Lines of a text

A line ends at a line feed, at a carriage return, or at a carriage return followed by a line feed,
which count as one break. A break at the end of the text is followed by one more, empty, line; so a
text has one line more than it has breaks.
-/

namespace Highlight.Text

/-- The lines of a text, without their breaks. -/
def linesOf : List Char → List (List Char)
  | [] => [[]]
  | '\r' :: '\n' :: cs => [] :: linesOf cs
  | c :: cs =>
    if c = '\n' ∨ c = '\r' then [] :: linesOf cs
    else
      match linesOf cs with
      | [] => [[c]]
      | line :: rest => (c :: line) :: rest

/-- The lines of a string, without their breaks. -/
def lines (s : String) : List String :=
  (linesOf s.toList).map String.ofList

/-- There is always a first line. -/
theorem linesOf_ne_nil (cs : List Char) : linesOf cs ≠ [] := by
  fun_cases linesOf cs <;> simp

end Highlight.Text
