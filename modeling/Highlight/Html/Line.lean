import Highlight.Html.Glyph
import Highlight.Line.Token
import Highlight.Token.Theme

/-!
# Lines in HTML

A rendered line is a `span` around one `span` per run. Runs are given by words, which may come from
anywhere: each run starts where its word says, but not behind the end of the line, and ends where
the next one starts, but not before its own start. The first run starts with the line and the last
one ends with it. Without any run the whole line is one run without style.
-/

namespace Highlight.Html

/-- A run as it is rendered: which characters it covers, and how they look. -/
structure Stretch where
  start : Nat
  stop : Nat
  /-- The word of the look; without one there is no style. -/
  metadata : Option Metadata
  deriving DecidableEq, Repr

/-- The stretches from `start` on of a line of some length, beginning with one of the given look. -/
def stretchesFrom (length start : Nat) (metadata : Metadata) : List Run → List Stretch
  | [] => [⟨start, length, some metadata⟩]
  | next :: rest =>
    let reported := min next.start.toNat length
    ⟨start, max start reported, some metadata⟩ ::
      stretchesFrom length reported next.metadata rest

/-- The stretches of a line of some length. -/
def stretches (length : Nat) (words : List UInt32) : List Stretch :=
  match Run.ofWords words with
  | [] => [⟨0, length, none⟩]
  | first :: rest => stretchesFrom length 0 first.metadata rest

/-- The characters that a stretch covers. -/
def Stretch.chars (stretch : Stretch) (line : List Char) : List Char :=
  (line.drop stretch.start).take (stretch.stop - stretch.start)

/-- The style sheet declarations of a word: its color, if the theme knows it, and its font style. -/
def styleText (theme : TokenTheme) (m : Metadata) : String :=
  let color :=
    match theme.color m.foreground with
    | some color => "color: " ++ color.toHex ++ ";"
    | none => ""
  color ++ String.join m.fontStyle.css

/-- The style sheet declarations of a stretch. -/
def Stretch.styleText (stretch : Stretch) (theme : TokenTheme) : String :=
  (stretch.metadata.map (Html.styleText theme)).getD ""

/-- The tag that opens a run. -/
def openTag (style : String) : List Char :=
  if style.isEmpty then "<span>".toList
  else "<span style=\"".toList ++ style.toList ++ "\">".toList

/-- The tag that closes a run or a line. -/
def closeTag : List Char := "</span>".toList

/-- Renders stretches one after the other, with the cursor carried over from one to the next. -/
def renderStretches (theme : TokenTheme) (options : RenderOptions) (line : List Char)
    (cursor : Cursor) : List Stretch → List Char
  | [] => []
  | stretch :: rest =>
    let (content, next) := spellAll options cursor (stretch.chars line)
    openTag (stretch.styleText theme) ++ content ++ closeTag ++
      renderStretches theme options line next rest

/-- Renders a line with the words of its runs. -/
def renderLine (theme : TokenTheme) (options : RenderOptions) (line : List Char)
    (words : List UInt32) : List Char :=
  openTag "" ++ renderStretches theme options line {} (stretches line.length words) ++ closeTag

end Highlight.Html
