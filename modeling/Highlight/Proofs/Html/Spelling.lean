import Highlight.Html.Line

/-!
# Spelled runs

A rendered line is a list of runs, each with its style and the spelling of its characters. Since the
cursor is carried over from run to run, the spellings of the runs make up the spelling of the line,
wherever it is cut (`flatMap_content_spelledRuns`).
-/

namespace Highlight.Html

variable {options : RenderOptions} {cursor : Cursor}

/-! ### Runs -/

/-- A run as it is written. -/
structure SpelledRun where
  style : String
  content : List Char

namespace SpelledRun

/-- The tag in front of a run: with a style only if there is one. -/
def frontTag (run : SpelledRun) : List Char :=
  if run.style.isEmpty then "<span>".toList
  else "<span style=\"".toList ++ run.style.toList ++ "\">".toList

def html (run : SpelledRun) : List Char := run.frontTag ++ run.content ++ "</span>".toList

end SpelledRun

/-- The runs of stretches, with the cursor carried over from one to the next. -/
def spelledRuns (theme : TokenTheme) (options : RenderOptions) (line : List Char)
    (cursor : Cursor) : List Stretch → List SpelledRun
  | [] => []
  | stretch :: rest =>
      ⟨stretch.styleText theme, (spellAll options cursor (stretch.chars line)).1⟩ ::
        spelledRuns theme options line (spellAll options cursor (stretch.chars line)).2 rest

/-- The runs of a line. -/
def lineRuns (theme : TokenTheme) (options : RenderOptions) (line : List Char)
    (words : List UInt32) : List SpelledRun :=
  spelledRuns theme options line {} (stretches line.length words)

theorem renderStretches_eq_flatMap_html (theme : TokenTheme) (line : List Char)
    (stretches : List Stretch) :
    renderStretches theme options line cursor stretches =
      (spelledRuns theme options line cursor stretches).flatMap SpelledRun.html := by
  induction stretches generalizing cursor with
  | nil => rfl
  | cons stretch rest ih =>
      simp only [renderStretches, spelledRuns, List.flatMap_cons, ih]
      rfl

theorem renderLine_eq_flatMap_html (theme : TokenTheme) (line : List Char) (words : List UInt32) :
    renderLine theme options line words =
      "<span>".toList ++ (lineRuns theme options line words).flatMap SpelledRun.html ++
        "</span>".toList := by
  rw [renderLine, renderStretches_eq_flatMap_html, lineRuns]
  rfl

theorem lineRuns_ne_nil (theme : TokenTheme) (line : List Char) (words : List UInt32) :
    lineRuns theme options line words ≠ [] := by
  unfold lineRuns stretches
  cases Run.ofWords words with
  | nil => simp [spelledRuns]
  | cons first rest => cases rest <;> simp [stretchesFrom, spelledRuns]

/-- The tags of a line and its runs. -/
def lineTags (runs : List SpelledRun) : List (List Char) :=
  "<span>".toList :: runs.flatMap (fun run => [run.frontTag, "</span>".toList]) ++
    ["</span>".toList]

/-- The tags come from the stretches and the theme, whatever the characters are. -/
theorem lineTags_spelledRuns (theme : TokenTheme) (line : List Char) (stretches : List Stretch) :
    lineTags (spelledRuns theme options line cursor stretches) =
      lineTags (stretches.map fun stretch => ⟨stretch.styleText theme, []⟩) := by
  unfold lineTags
  congr 2
  induction stretches generalizing cursor with
  | nil => rfl
  | cons stretch rest ih =>
      simp only [spelledRuns, List.flatMap_cons, List.map_cons, ih]
      rfl

theorem spellAll_append (front back : List Char) :
    spellAll options cursor (front ++ back) =
      ((spellAll options cursor front).1 ++
          (spellAll options (spellAll options cursor front).2 back).1,
        (spellAll options (spellAll options cursor front).2 back).2) := by
  induction front generalizing cursor with
  | nil => rfl
  | cons c front ih => simp [spellAll, ih]

/-- The contents of the runs are the spelling of the characters in them. -/
theorem flatMap_content_spelledRuns (theme : TokenTheme) (line : List Char)
    (stretches : List Stretch) :
    (spelledRuns theme options line cursor stretches).flatMap SpelledRun.content =
      (spellAll options cursor (stretches.flatMap (·.chars line))).1 := by
  induction stretches generalizing cursor with
  | nil => rfl
  | cons stretch rest ih => simp [spelledRuns, spellAll_append, ih]

end Highlight.Html
