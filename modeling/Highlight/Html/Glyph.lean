/-!
# Characters in HTML

Every character of a line has a spelling in HTML. Tabs become fillers up to the next tab stop, so
the spelling depends on the column; and if spaces are kept apart, a space behind a plain space is
spelled as a non-breaking one, so it depends on what was written before. Nothing else of the line is
needed: the spelling of a line can be found character by character, however it is cut into runs.
-/

namespace Highlight

/-- How text is rendered. -/
structure RenderOptions where
  /-- The distance of tab stops; 0 counts as 1. -/
  tabSize : Nat := 4
  /-- Whether adjacent spaces are kept apart by non-breaking ones. -/
  useNbsp : Bool := false
  /-- Whether text in a language without tokenizer is rendered as plain text. -/
  plainFallback : Bool := false
  deriving DecidableEq, Repr

namespace Html

/-- Where in a line the next character is written. -/
structure Cursor where
  column : Nat := 0
  /-- Whether a plain space was written just before. -/
  afterSpace : Bool := false
  deriving DecidableEq, Repr

/-- The spelling of a non-breaking space. -/
def nbsp : List Char := "&#160;".toList

/-- The columns up to the next tab stop. -/
def tabWidth (options : RenderOptions) (column : Nat) : Nat :=
  let size := max options.tabSize 1
  size - column % size

/-- The spelling of a character other than a tab or a space. Markup is written by entities, and so
are two control characters; characters that browsers take for line breaks or drop are replaced. -/
def entity (c : Char) : List Char :=
  if c = '<' then "&lt;".toList
  else if c = '>' then "&gt;".toList
  else if c = '&' then "&amp;".toList
  else if c = '\x00' then "&#00;".toList
  else if c = '\r' then "&#8203;".toList
  else if c = '\uFEFF' ∨ c = '\u2028' ∨ c = '\u2029' ∨ c = '\u0085' then ['\uFFFD']
  else [c]

/-- The spelling of a character, and the cursor behind it. -/
def spell (options : RenderOptions) (cursor : Cursor) (c : Char) : List Char × Cursor :=
  if c = '\t' then
    let width := tabWidth options cursor.column
    let filler := if options.useNbsp then nbsp else [' ']
    ((List.replicate width filler).flatten, ⟨cursor.column + width, !options.useNbsp⟩)
  else if c = ' ' then
    if options.useNbsp && cursor.afterSpace then (nbsp, ⟨cursor.column + 1, false⟩)
    else ([' '], ⟨cursor.column + 1, true⟩)
  else (entity c, ⟨cursor.column + 1, false⟩)

/-- The spelling of several characters, and the cursor behind them. -/
def spellAll (options : RenderOptions) (cursor : Cursor) : List Char → List Char × Cursor
  | [] => ([], cursor)
  | c :: cs =>
    let (here, next) := spell options cursor c
    let (rest, last) := spellAll options next cs
    (here ++ rest, last)

end Html

end Highlight
