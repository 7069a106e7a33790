import Highlight.Proofs.Html.Harmless
import Highlight.Proofs.Html.Lines
import Highlight.Proofs.Text.Breaks

/-!
# No text gets into the markup

Whatever a tokenizer gives for the lines of a text, a rendering that succeeds is one line of runs
per line of the text, and all tags in it are those of the lines and runs. Words choose among styles;
characters only get into contents, which are inert. A text has no breaks inside of its lines, so
what is written for single carriage returns does not occur either.
-/

namespace Highlight

namespace Html

/-- The characters of a line of a text are none of its breaks. -/
theorem fits_text {c : Char} (hlf : c ≠ '\n') (hcr : c ≠ '\r') :
    Fits textBarred textEntities c where
  barred_subset := List.Subset.refl _
  subset_entities := List.Subset.refl _
  lineFeed _ := hlf
  carriageReturn h := absurd h hcr

/-! ### The loop over lines -/

variable {W S : Type} {theme : TokenTheme} {options : RenderOptions} {cancelled : W → Bool}
  {tokenizer : Tokenizer W S}

/-- A line as it is written in a text. -/
def lineHtml (runs : List SpelledRun) : List Char :=
  "<span>".toList ++ runs.flatMap SpelledRun.html ++ "</span>".toList ++ "<br/>".toList

theorem lineHtml_lineRuns (line : List Char) (words : List UInt32) :
    renderLine theme options line words ++ lineBreak.toList =
      lineHtml (lineRuns theme options line words) := by
  rw [renderLine_eq_flatMap_html]
  rfl

/-- If the loop gets to its end, the runs of every line are behind what was in the buffer. -/
theorem runs_of_renderLines {lines : List String} {state : S} {buffer : Text.Buffer} {w : W}
    {html : String}
    (hdone : ((renderLines theme options cancelled tokenizer lines state buffer).run w).1 =
      .ok html) :
    ∃ rendered : List (List SpelledRun),
      rendered.length = lines.length ∧
        (∀ runs ∈ rendered, ∃ line ∈ lines, ∃ words,
          runs = lineRuns theme options line.toList words) ∧
        html.toList = buffer.text.toList ++ rendered.flatMap lineHtml := by
  induction lines generalizing state buffer w with
  | nil =>
      obtain rfl := Except.ok.inj hdone
      exact ⟨[], rfl, by simp, by simp⟩
  | cons line rest ih =>
      rw [run_renderLines_cons] at hdone
      split at hdone
      · cases hdone
      · obtain ⟨rendered, hlength, hruns, hhtml⟩ := ih hdone
        obtain ⟨words, hwords⟩ : ∃ words,
            words = ((tokenizer.encoded line state 0).run w).1.1 := ⟨_, rfl⟩
        refine ⟨lineRuns theme options line.toList words :: rendered, by simp [hlength], ?_, ?_⟩
        · intro runs hmem
          rcases List.mem_cons.mp hmem with rfl | hmem
          · exact ⟨line, List.mem_cons_self, words, rfl⟩
          · obtain ⟨later, hlater, hwords⟩ := hruns runs hmem
            exact ⟨later, List.mem_cons_of_mem line hlater, hwords⟩
        · rw [hhtml, ← hwords]
          simp [Text.Buffer.append, ← lineHtml_lineRuns]

/-! ### Runs and tags of a text -/

theorem wellFormed_of_mem_lines (theme : TokenTheme) (options : RenderOptions) {s line : String}
    (words : List UInt32) (hline : line ∈ Text.lines s) :
    WellFormed textBarred textEntities (lineRuns theme options line.toList words) := by
  obtain ⟨chars, hchars, rfl⟩ := List.mem_map.mp hline
  rw [String.toList_ofList]
  refine wellFormed_lineRuns theme options words fun c hc => ?_
  obtain ⟨hlf, hcr⟩ := Text.not_break_of_mem_linesOf hchars c hc
  exact fits_text hlf hcr

theorem tags_renderLine (theme : TokenTheme) (options : RenderOptions) (line : List Char)
    (words : List UInt32) :
    tags (renderLine theme options line words) =
      lineTags (lineRuns theme options line words) := by
  rw [tags, markup_renderLine]
  simp [lineTags, Piece.tag?, List.filterMap_flatMap, filterMap_tag?_pieces]

/-- The tags of a text are those that were written for its lines. -/
theorem tags_flatMap_lineHtml {lines : List (List SpelledRun)}
    (hlines : ∀ runs ∈ lines, ∀ run ∈ runs, run.Harmless) :
    tags (lines.flatMap lineHtml) =
      lines.flatMap fun runs => lineTags runs ++ ["<br/>".toList] := by
  induction lines with
  | nil => rfl
  | cons runs lines ih =>
      have hrest := ih fun later hmem => hlines later (List.mem_cons_of_mem runs hmem)
      have hbreak : IsTag "<br/>".toList := ⟨"br/".toList, rfl, by decide⟩
      have hline : markup (lineHtml runs ++ lines.flatMap lineHtml) =
          .tag "<span>".toList :: runs.flatMap SpelledRun.pieces ++ .tag "</span>".toList ::
            .tag "<br/>".toList :: markup (lines.flatMap lineHtml) := by
        rw [← markup_tag_append hbreak, ← markup_line (hlines runs List.mem_cons_self),
          ← List.append_assoc _ "<br/>".toList]
        rfl
      rw [List.flatMap_cons, List.flatMap_cons, ← hrest, tags, hline]
      simp [tags, lineTags, Piece.tag?, List.filterMap_flatMap, filterMap_tag?_pieces]

end Html

/-! ### Rendered texts -/

open Html

variable {W S : Type}

/-- A rendering that succeeds has found a tokenizer and got through all lines with it. -/
theorem Highlighter.renderText_of_poll {highlighter : Highlighter W S} {cancelled : W → Bool}
    {job : RenderJob} {providers : Providers (Tokenizer W S)} {w : W} {html : String}
    (hdone : ((highlighter.poll cancelled job).run (providers, w)).1 = .done (.ok html)) :
    ∃ tokenizer : Tokenizer W S, ((renderText highlighter.theme job.request.options cancelled
      tokenizer job.request.text).run w).1 = .ok html := by
  rcases hpoll : job.waiter.poll providers with ⟨found | waiter, settled⟩
  · rw [Highlighter.run_poll_of_done hpoll] at hdone
    have hrender : ((highlighter.render cancelled job.request found).run w).1 = .ok html :=
      Progress.done.inj hdone
    unfold Highlighter.render at hrender
    split at hrender
    · cases hrender
    · next tokenizer _ => exact ⟨tokenizer, hrender⟩
  · rw [Highlighter.run_poll_of_pending hpoll] at hdone
    dsimp only at hdone
    split at hdone <;> cases hdone

/-- **No text gets into the markup.** Whatever the tokenizers give, a text that is rendered to its
end is one well-formed line of runs per line of the text, and nothing else; read back, its tags are
those of the lines and runs. A single line is well-formed too, with one more entity, and other
characters in its place do not change the tags. -/
theorem Highlighter.poll_wellFormed (highlighter : Highlighter W S) (cancelled : W → Bool) :
    (∀ (job : RenderJob) (providers : Providers (Tokenizer W S)) (w : W) (html : String),
      ((highlighter.poll cancelled job).run (providers, w)).1 = .done (.ok html) →
      ∃ lines : List (List SpelledRun),
        lines.length = (Text.lines job.request.text).length ∧
        html.toList = lines.flatMap lineHtml ∧
        (∀ runs ∈ lines, WellFormed textBarred textEntities runs) ∧
        tags html.toList = lines.flatMap fun runs => lineTags runs ++ ["<br/>".toList]) ∧
    ∀ (options : RenderOptions) (line : List Char) (words : List UInt32),
      (∃ runs : List SpelledRun,
        renderLine highlighter.theme options line words =
          "<span>".toList ++ runs.flatMap SpelledRun.html ++ "</span>".toList ∧
        WellFormed lineBarred lineEntities runs ∧
        tags (renderLine highlighter.theme options line words) = lineTags runs) ∧
      ∀ other : List Char, other.length = line.length →
        tags (renderLine highlighter.theme options other words) =
          tags (renderLine highlighter.theme options line words) := by
  refine ⟨?_, fun options line words => ⟨?_, ?_⟩⟩
  · intro job providers w html hdone
    obtain ⟨tokenizer, hrendered⟩ := renderText_of_poll hdone
    obtain ⟨lines, hlength, hlines, hhtml⟩ := runs_of_renderLines hrendered
    have hwell : ∀ runs ∈ lines, WellFormed textBarred textEntities runs := by
      intro runs hruns
      obtain ⟨line, hline, words, rfl⟩ := hlines runs hruns
      exact wellFormed_of_mem_lines highlighter.theme job.request.options words hline
    have htext : html.toList = lines.flatMap lineHtml := hhtml
    refine ⟨lines, hlength, htext, hwell, ?_⟩
    rw [htext]
    exact tags_flatMap_lineHtml fun runs hruns => (hwell runs hruns).harmless (by decide)
  · exact ⟨lineRuns highlighter.theme options line words,
      renderLine_eq_flatMap_html highlighter.theme line words,
      wellFormed_lineRuns highlighter.theme options words fun c _ => fits_line c,
      tags_renderLine highlighter.theme options line words⟩
  · intro other hlength
    simp only [tags_renderLine, lineRuns, lineTags_spelledRuns, hlength]

/-- A tokenizer with words that belong to no line, and a text that looks like markup. -/
theorem Highlighter.poll_wellFormed_untrusted :
    let untrusted : Tokenizer Unit Unit :=
      ⟨(), fun _ _ _ => pure ([], ()), fun _ _ _ => pure ([7, 16384, 1, 6144, 2], ())⟩
    let highlighter : Highlighter Unit Unit :=
      { theme := ⟨fun language _ => .plain language, fun _ => some .black⟩, plain := untrusted }
    let job := RenderRequest.start ⟨"<b>\r\n&\t", "html", { plainFallback := true }⟩
    let html := "<span><span style=\"color: #000000;\">&lt;</span>" ++
      "<span style=\"color: #000000;font-style: italic;font-weight: bold;\">b&gt;</span>" ++
      "</span><br/><span><span style=\"color: #000000;\">&amp;</span>" ++
      "<span style=\"color: #000000;font-style: italic;font-weight: bold;\">   </span>" ++
      "</span><br/>"
    ((highlighter.poll (fun _ => false) job).run ({}, ())).1 = .done (.ok html) ∧
      ∃ lines : List (List SpelledRun),
        lines.length = 2 ∧ html.toList = lines.flatMap lineHtml ∧
        ∀ runs ∈ lines, WellFormed textBarred textEntities runs := by
  intro untrusted highlighter job html
  have hlines : Text.lines job.request.text = ["<b>", "&\t"] := by decide +kernel
  have hrendered : ((renderText highlighter.theme job.request.options (fun _ => false)
      untrusted job.request.text).run ()).1 = .ok html := by
    rw [renderText, hlines]
    exact congrArg Except.ok (by decide +kernel)
  have hdone : ((highlighter.poll (fun _ => false) job).run ({}, ())).1 = .done (.ok html) :=
    congrArg Progress.done hrendered
  obtain ⟨hpoll, -⟩ := highlighter.poll_wellFormed fun _ => false
  obtain ⟨lines, hlength, hhtml, hwell, -⟩ := hpoll job {} () html hdone
  exact ⟨hdone, lines, hlength.trans (congrArg List.length hlines), hhtml, hwell⟩

end Highlight
