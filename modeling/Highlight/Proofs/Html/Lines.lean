import Highlight.Html.Document
import Mathlib.Data.List.Chain

/-!
# The loop over lines

A text is rendered by asking for the tokens of one line after the other, each from the end state of
the line before. `askAll` does the asking without the rendering, and without looking at the
cancellation. As long as nothing is cancelled the loop asks for just these lines and keeps what it
has rendered in its buffer (`run_renderLines_append`). So it stops at the first line in front of
which the work is found to be cancelled, or else it renders all answers.
-/

namespace Highlight

namespace Html

variable {W S : Type}

/-! ### Asking for lines -/

/-- What a tokenizer was asked for a line, and what it answered. -/
structure Answer (S : Type) where
  line : String
  start : S
  words : List UInt32
  stop : S

/-- The question that was answered: a line and the state in front of it. -/
def Answer.question (answer : Answer S) : String × S := (answer.line, answer.start)

/-- An answer as it is rendered, with the break behind it. -/
def Answer.html (theme : TokenTheme) (options : RenderOptions) (answer : Answer S) : List Char :=
  renderLine theme options answer.line.toList answer.words ++ lineBreak.toList

/-- Asks for lines one after the other, and gives the state behind them. -/
def askAll (tokenizer : Tokenizer W S) : List String → S → StateM W (List (Answer S) × S)
  | [], state => return ([], state)
  | line :: rest, state => do
    let (words, stop) ← tokenizer.encoded line state 0
    let (answers, last) ← askAll tokenizer rest stop
    return (⟨line, state, words, stop⟩ :: answers, last)

variable {tokenizer : Tokenizer W S}

theorem run_askAll_nil (state : S) (w : W) :
    (askAll tokenizer [] state).run w = (([], state), w) :=
  rfl

theorem run_askAll_cons {line : String} {state stop : S} {w w' : W} {words : List UInt32}
    (hfound : (tokenizer.encoded line state 0).run w = ((words, stop), w')) (rest : List String) :
    (askAll tokenizer (line :: rest) state).run w =
      let asked := (askAll tokenizer rest stop).run w'
      ((⟨line, state, words, stop⟩ :: asked.1.1, asked.1.2), asked.2) := by
  simp only [askAll, StateT.run_bind, hfound]
  rfl

/-- Every line is asked for once, in order. -/
theorem map_line_askAll (tokenizer : Tokenizer W S) (lines : List String) (state : S) (w : W) :
    ((askAll tokenizer lines state).run w).1.1.map Answer.line = lines := by
  induction lines generalizing state w with
  | nil => rfl
  | cons line rest ih =>
      obtain ⟨⟨⟨words, stop⟩, w'⟩, hfound⟩ : ∃ found,
        (tokenizer.encoded line state 0).run w = found := ⟨_, rfl⟩
      rw [run_askAll_cons hfound]
      exact congrArg (line :: ·) (ih stop w')

theorem length_askAll (tokenizer : Tokenizer W S) (lines : List String) (state : S) (w : W) :
    ((askAll tokenizer lines state).run w).1.1.length = lines.length := by
  rw [← List.length_map Answer.line, map_line_askAll]

/-- The first line is asked for from the given state and every other one from the end state of the
line before. -/
theorem isChain_askAll (tokenizer : Tokenizer W S) (lines : List String) (state : S) (w : W) :
    (∀ answer ∈ ((askAll tokenizer lines state).run w).1.1.head?, answer.start = state) ∧
      ((askAll tokenizer lines state).run w).1.1.IsChain fun a b => b.start = a.stop := by
  induction lines generalizing state w with
  | nil =>
      refine ⟨fun answer hanswer => ?_, List.isChain_nil⟩
      cases hanswer
  | cons line rest ih =>
      obtain ⟨⟨⟨words, stop⟩, w'⟩, hfound⟩ : ∃ found,
        (tokenizer.encoded line state 0).run w = found := ⟨_, rfl⟩
      obtain ⟨hstart, hchain⟩ := ih stop w'
      rw [run_askAll_cons hfound]
      refine ⟨?_, List.isChain_cons.mpr ⟨hstart, hchain⟩⟩
      intro answer hanswer
      obtain rfl := Option.some.inj hanswer
      rfl

/-- The first answers do not depend on what is asked later. -/
theorem take_askAll (tokenizer : Tokenizer W S) (k : Nat) (lines : List String) (state : S)
    (w : W) :
    ((askAll tokenizer (lines.take k) state).run w).1.1 =
      ((askAll tokenizer lines state).run w).1.1.take k := by
  induction lines generalizing k state w with
  | nil => simp [run_askAll_nil]
  | cons line rest ih =>
      cases k with
      | zero => rfl
      | succ k =>
          obtain ⟨⟨⟨words, stop⟩, w'⟩, hfound⟩ : ∃ found,
            (tokenizer.encoded line state 0).run w = found := ⟨_, rfl⟩
          rw [List.take_succ_cons, run_askAll_cons hfound, run_askAll_cons hfound]
          exact congrArg (_ :: ·) (ih k stop w')

/-! ### Rendering lines -/

variable {theme : TokenTheme} {options : RenderOptions} {cancelled : W → Bool}

theorem run_renderLines_cons (line : String) (rest : List String) (state : S)
    (buffer : Text.Buffer) (w : W) :
    (renderLines theme options cancelled tokenizer (line :: rest) state buffer).run w =
      if cancelled w then (.error .cancelled, w)
      else
        let found := (tokenizer.encoded line state 0).run w
        let rendered := String.ofList (renderLine theme options line.toList found.1.1)
        (renderLines theme options cancelled tokenizer rest found.1.2
          ((buffer.append rendered).append lineBreak)).run found.2 := by
  simp only [renderLines, StateT.run_bind, StateT.run_get, pure_bind]
  split
  · rfl
  · rfl

/-- A buffer behind which answers have been rendered. -/
def rendered (theme : TokenTheme) (options : RenderOptions) (buffer : Text.Buffer)
    (answers : List (Answer S)) : Text.Buffer :=
  buffer.append (String.ofList (answers.flatMap (Answer.html theme options)))

theorem rendered_nil (buffer : Text.Buffer) :
    rendered theme options buffer ([] : List (Answer S)) = buffer := by
  simp [rendered, Text.Buffer.append]

theorem text_rendered_empty (answers : List (Answer S)) :
    (rendered theme options .empty answers).text =
      String.ofList (answers.flatMap (Answer.html theme options)) :=
  String.empty_append

theorem rendered_cons (buffer : Text.Buffer) (answer : Answer S) (answers : List (Answer S)) :
    rendered theme options buffer (answer :: answers) =
      rendered theme options ((buffer.append (String.ofList
        (renderLine theme options answer.line.toList answer.words))).append lineBreak) answers := by
  simp [rendered, Text.Buffer.append, Answer.html, String.append_assoc]

/-- **As long as nothing is cancelled**, the loop renders what is answered line by line. -/
theorem run_renderLines_append (first rest : List String) {state : S} {buffer : Text.Buffer} {w : W}
    (hquiet : ∀ j < first.length,
      cancelled ((askAll tokenizer (first.take j) state).run w).2 = false) :
    (renderLines theme options cancelled tokenizer (first ++ rest) state buffer).run w =
      let asked := (askAll tokenizer first state).run w
      (renderLines theme options cancelled tokenizer rest asked.1.2
        (rendered theme options buffer asked.1.1)).run asked.2 := by
  induction first generalizing state buffer w with
  | nil =>
      rw [run_askAll_nil, List.nil_append]
      dsimp only
      rw [rendered_nil]
  | cons line first ih =>
      obtain ⟨⟨⟨words, stop⟩, w'⟩, hfound⟩ : ∃ found,
        (tokenizer.encoded line state 0).run w = found := ⟨_, rfl⟩
      have hnow : cancelled w = false := hquiet 0 (Nat.zero_lt_succ _)
      have hlater : ∀ j < first.length,
          cancelled ((askAll tokenizer (first.take j) stop).run w').2 = false := by
        intro j hj
        have hquiet := hquiet (j + 1) (Nat.succ_lt_succ hj)
        rwa [List.take_succ_cons, run_askAll_cons hfound] at hquiet
      rw [List.cons_append, run_renderLines_cons, hnow, if_neg Bool.false_ne_true, hfound,
        run_askAll_cons hfound]
      dsimp only
      rw [ih hlater, rendered_cons]

/-- The loop stops at the first line in front of which the work is cancelled, and asks for none of
the lines from that one on. -/
theorem run_renderLines_of_cancelled {lines : List String} {state : S} {buffer : Text.Buffer}
    {w : W} {k : Nat} (hk : k < lines.length)
    (hquiet : ∀ j < k, cancelled ((askAll tokenizer (lines.take j) state).run w).2 = false)
    (hcancelled : cancelled ((askAll tokenizer (lines.take k) state).run w).2 = true) :
    (renderLines theme options cancelled tokenizer lines state buffer).run w =
      (.error .cancelled, ((askAll tokenizer (lines.take k) state).run w).2) := by
  have hfirst : ∀ j < (lines.take k).length,
      cancelled ((askAll tokenizer ((lines.take k).take j) state).run w).2 = false := by
    intro j hj
    rw [List.length_take] at hj
    rw [List.take_take, Nat.min_eq_left (by omega)]
    exact hquiet j (by omega)
  rw [← List.take_append_drop k lines, run_renderLines_append _ _ hfirst,
    List.take_append_drop, List.drop_eq_getElem_cons hk, run_renderLines_cons]
  exact if_pos hcancelled

/-- A loop that finds the work cancelled in front of no line renders all answers. -/
theorem run_renderLines_of_quiet {lines : List String} {state : S} {buffer : Text.Buffer} {w : W}
    (hquiet : ∀ j < lines.length,
      cancelled ((askAll tokenizer (lines.take j) state).run w).2 = false) :
    (renderLines theme options cancelled tokenizer lines state buffer).run w =
      let asked := (askAll tokenizer lines state).run w
      (.ok (rendered theme options buffer asked.1.1).text, asked.2) := by
  rw [← List.append_nil lines, run_renderLines_append lines [] hquiet, List.append_nil]
  rfl

end Html

/-! ### Polls -/

namespace Highlighter

variable {W S : Type} {highlighter : Highlighter W S} {cancelled : W → Bool} {job : RenderJob}
  {providers settled : Providers (Tokenizer W S)}

/-- Without a tokenizer the text is rendered as plain text, or not at all. -/
theorem render_noTokenizer (highlighter : Highlighter W S) (cancelled : W → Bool)
    (request : RenderRequest) (language : String) :
    highlighter.render cancelled request (.error (.noTokenizer language)) =
      if request.options.plainFallback then
        Html.renderText highlighter.theme request.options cancelled highlighter.plain request.text
      else pure (.error (.noTokenizer language)) := by
  unfold Highlighter.render Highlighter.tokenizerOf
  cases request.options.plainFallback with
  | true => rfl
  | false => rfl

/-- As soon as the wait for the tokenizer is over, the text is rendered with what was found. -/
theorem run_poll_of_done {found : Except Fault (Tokenizer W S)}
    (hpoll : job.waiter.poll providers = (.done found, settled)) (w : W) :
    (highlighter.poll cancelled job).run (providers, w) =
      let rendered := (highlighter.render cancelled job.request found).run w
      (.done rendered.1, (settled, rendered.2)) := by
  simp only [Highlighter.poll, StateT.run, hpoll]
  rfl

/-- While the wait goes on, the work looks whether it has been cancelled. -/
theorem run_poll_of_pending {waiter : Waiter}
    (hpoll : job.waiter.poll providers = (.pending waiter, settled)) (w : W) :
    (highlighter.poll cancelled job).run (providers, w) =
      (if cancelled w then .done (.error .cancelled) else .pending { job with waiter },
        (settled, w)) := by
  simp only [Highlighter.poll, StateT.run, hpoll]
  split
  · rfl
  · rfl

/-- With a tokenizer that is ready, the first poll renders the text. -/
theorem run_poll_of_ready {request : RenderRequest} {tokenizer : Tokenizer W S}
    (hready : providers.entries[request.language]? = some (.ready tokenizer)) (w : W) :
    (highlighter.poll cancelled request.start).run (providers, w) =
      let rendered := (Html.renderText highlighter.theme request.options cancelled tokenizer
        request.text).run w
      (.done rendered.1, (providers, rendered.2)) := by
  have hpoll : request.start.waiter.poll providers = (.done (.ok tokenizer), providers) := by
    simp only [RenderRequest.start, Waiter.poll, hready]
  exact run_poll_of_done hpoll w

end Highlighter

end Highlight
