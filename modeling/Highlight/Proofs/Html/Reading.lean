import Highlight.Proofs.Html.Decoding

/-!
# The runs of a line are read back

A reader of a rendered line knows tags and entities, and nothing of how lines are written. Between
the tags that open and close the line it reads run after run (`readLine`): a tag with or without
style sheet declarations, text with its entities replaced, and the closing tag.

Whatever the words of the line are, it reads the runs of the line with their styles, and of the
characters in each what is seen of them (`readLine_renderLine`). That depends on the column where
they are written. The column is carried on from run to run and counts what has been read so far, in
all runs.
-/

namespace Highlight.Html

/-! ### Runs -/

/-- A run as it is meant: its style sheet declarations and the characters in it. -/
structure StyledRun where
  style : String
  chars : List Char
  deriving DecidableEq

/-- The characters of a run, each with the style of the run. -/
def StyledRun.styled (run : StyledRun) : List (String × Char) :=
  run.chars.map fun c => (run.style, c)

/-- The run of a stretch. -/
def Stretch.run (theme : TokenTheme) (line : List Char) (stretch : Stretch) : StyledRun :=
  ⟨stretch.styleText theme, stretch.chars line⟩

/-- What is seen of runs that are written from a column on. -/
def shownRuns (tabSize column : Nat) : List StyledRun → List StyledRun
  | [] => []
  | run :: rest =>
      let text := shownFrom tabSize column run.chars
      ⟨run.style, text⟩ :: shownRuns tabSize (column + text.length) rest

/-! ### Reading -/

/-- The style sheet declarations in the tag that opens a run. -/
def styleOfTag? (tag : List Char) : Option String :=
  if tag = "<span>".toList then some ""
  else (tag.dropPrefix? "<span style=\"".toList).bind fun rest =>
    if rest.dropWhile (· ≠ '"') = "\">".toList then
      some (.ofList (rest.takeWhile (· ≠ '"')))
    else none

/-- Reads runs up to the tag that closes the line. Of a run that has been opened there are its style
and its text so far. -/
def readRuns : Option StyledRun → List Piece → Option (List StyledRun)
  | none, .tag tag :: rest =>
      if tag = "</span>".toList then if rest.isEmpty then some [] else none
      else (styleOfTag? tag).bind fun style => readRuns (some ⟨style, []⟩) rest
  | some run, .char c :: rest => readRuns (some ⟨run.style, run.chars ++ [c]⟩) rest
  | some run, .tag tag :: rest =>
      if tag = "</span>".toList then
        (readRuns none rest).map (⟨run.style, decode run.chars⟩ :: ·)
      else none
  | _, _ => none

/-- Reads a line. -/
def readLine (html : List Char) : Option (List StyledRun) :=
  match markup html with
  | .tag tag :: rest => if tag = "<span>".toList then readRuns none rest else none
  | _ => none

/-! ### What is read of what is written -/

theorem styleOfTag?_frontTag {run : SpelledRun} (hstyle : IsStyle run.style) :
    styleOfTag? run.frontTag = some run.style := by
  have hquote : ∀ c ∈ run.style.toList, decide (c ≠ '"') = true := by
    intro c hc
    have hbarred : '"' ∉ styleChars := by decide
    exact decide_eq_true fun heq => hbarred (heq ▸ mem_styleChars hstyle c hc)
  unfold SpelledRun.frontTag
  split
  · next hempty =>
      rw [String.isEmpty_iff.mp hempty]
      rfl
  · -- declarations have no quotation marks, so they end at the first one
    have hnamed : "<span style=\"".toList ++ run.style.toList ++ "\">".toList ≠
        "<span>".toList := by
      intro heq
      have hquoted : '"' ∈ "<span>".toList := heq ▸ by simp
      exact absurd hquoted (by decide)
    have hdropped : ("<span style=\"".toList ++ run.style.toList ++ "\">".toList).dropPrefix?
        "<span style=\"".toList = some (run.style.toList ++ "\">".toList) :=
      List.dropPrefix?_eq_some_iff.mpr ⟨_, List.append_assoc .., beq_self_eq_true _⟩
    rw [styleOfTag?, if_neg hnamed, hdropped, Option.bind_some,
      List.dropWhile_append_of_pos hquote, List.takeWhile_append_of_pos hquote]
    simp

/-- What is read of a run as it is written. -/
def SpelledRun.read (run : SpelledRun) : StyledRun := ⟨run.style, decode run.content⟩

theorem readRuns_text (run : StyledRun) (text : List Char) (rest : List Piece) :
    readRuns (some run) (text.map .char ++ rest) =
      readRuns (some ⟨run.style, run.chars ++ text⟩) rest := by
  induction text generalizing run with
  | nil => simp
  | cons c text ih => simp [readRuns, ih]

/-- A run that is written is read. -/
theorem readRuns_pieces {run : SpelledRun} (hstyle : IsStyle run.style) (rest : List Piece) :
    readRuns none (run.pieces ++ rest) = (readRuns none rest).map (run.read :: ·) := by
  have hopen : run.frontTag ≠ "</span>".toList := by
    intro heq
    have hread := styleOfTag?_frontTag hstyle
    rw [heq] at hread
    cases hread
  rw [SpelledRun.pieces, List.cons_append, List.cons_append, readRuns, if_neg hopen,
    styleOfTag?_frontTag hstyle, Option.bind_some, List.append_assoc, readRuns_text]
  rfl

theorem readRuns_flatMap_pieces {runs : List SpelledRun} (hruns : ∀ run ∈ runs, IsStyle run.style) :
    readRuns none (runs.flatMap SpelledRun.pieces ++ [.tag "</span>".toList]) =
      some (runs.map SpelledRun.read) := by
  induction runs with
  | nil => rfl
  | cons run runs ih =>
      have hrest := ih fun later hmem => hruns later (List.mem_cons_of_mem run hmem)
      rw [List.flatMap_cons, List.append_assoc, readRuns_pieces (hruns run List.mem_cons_self),
        hrest]
      rfl

/-- Of every run that is written, what is seen of its characters is read, from the column on that
the runs before it have reached. -/
theorem map_read_spelledRuns (theme : TokenTheme) (options : RenderOptions) (line : List Char)
    (cursor : Cursor) (stretches : List Stretch) :
    (spelledRuns theme options line cursor stretches).map SpelledRun.read =
      shownRuns options.tabSize cursor.column (stretches.map (·.run theme line)) := by
  induction stretches generalizing cursor with
  | nil => rfl
  | cons stretch rest ih =>
      simp only [spelledRuns, List.map_cons, shownRuns, ih, column_spellAll, Stretch.run,
        SpelledRun.read, decode_spellAll]

/-- **The runs of a line are read back**, whatever its words are: their styles as they are, and
their characters as they are seen. -/
theorem readLine_renderLine (theme : TokenTheme) (options : RenderOptions) (line : List Char)
    (words : List UInt32) :
    readLine (renderLine theme options line words) =
      some (shownRuns options.tabSize 0
        ((stretches line.length words).map (·.run theme line))) := by
  have hwell := wellFormed_lineRuns theme options words fun c (_ : c ∈ line) => fits_line c
  have hruns : ∀ run ∈ lineRuns theme options line words, IsStyle run.style :=
    fun run hrun => (hwell.2 run hrun).1
  rw [readLine, markup_renderLine, List.cons_append]
  simp only [if_true]
  rw [readRuns_flatMap_pieces hruns, lineRuns, map_read_spelledRuns]

/-! ### What is seen of runs -/

/-- What is seen of the runs is what is seen of all their characters. -/
theorem flatMap_chars_shownRuns (tabSize column : Nat) (runs : List StyledRun) :
    (shownRuns tabSize column runs).flatMap StyledRun.chars =
      shownFrom tabSize column (runs.flatMap StyledRun.chars) := by
  induction runs generalizing column with
  | nil => rfl
  | cons run rest ih => simp only [shownRuns, List.flatMap_cons, shownFrom_append, ih]

/-- Every character of every run is seen in some run. -/
theorem exists_shownChar_infix {tabSize column : Nat} {runs : List StyledRun} {c : Char}
    (hmem : c ∈ runs.flatMap StyledRun.chars) :
    ∃ run ∈ shownRuns tabSize column runs, ∃ before,
      shownChar tabSize before c <:+: run.chars := by
  induction runs generalizing column with
  | nil => cases hmem
  | cons run rest ih =>
      rw [List.flatMap_cons, List.mem_append] at hmem
      rcases hmem with hhere | hlater
      · obtain ⟨front, back, hchars⟩ := List.append_of_mem hhere
        refine ⟨_, List.mem_cons_self, column + (shownFrom tabSize column front).length, ?_⟩
        rw [hchars, shownFrom_append]
        exact ⟨shownFrom tabSize column front, _, by rw [shownFrom, List.append_assoc]⟩
      · obtain ⟨seen, hseen, hinfix⟩ := ih hlater
        exact ⟨seen, List.mem_cons_of_mem _ hseen, hinfix⟩

end Highlight.Html
