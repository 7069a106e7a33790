import Highlight.Proofs.Html.Lines

/-!
# Cancelling while lines are rendered

A rendering with a tokenizer that is ready is over at its first poll. Its token may have been
cancelled before that poll, and it may be cancelled while the tokenizer works at a line: by the
tokenizer or by anybody else (`Moment`). The loop looks at the token in front of each line and
nowhere else, so what comes out is all or nothing.

To tell what was asked and when the token was cancelled, a tokenizer is observed
(`Tokenizer.observed`): every question is noted down, and the token is cancelled at a given moment.
The tokenizer itself notices none of this, so it gives the answers it gives on its own. The
invariant of the loop is `Observed.OnTime`: in front of a line the token is cancelled exactly if the
moment came before that line was started, lines being counted by the questions.
-/

namespace Highlight

variable {V S : Type}

/-! ### Moments -/

/-- When a token is cancelled. -/
inductive Moment where
  /-- Before the first poll. -/
  | beforeStart
  /-- While the tokenizer works at the line with the given number, counted from zero. -/
  | during (line : Nat)
  | never
  deriving DecidableEq

/-- Whether a moment comes before a line is started. -/
def Moment.isBefore (line : Nat) : Moment → Bool
  | beforeStart => true
  | during k => k < line
  | never => false

theorem Moment.isBefore_succ (moment : Moment) (line : Nat) :
    moment.isBefore (line + 1) = (moment.isBefore line || decide (moment = .during line)) := by
  cases moment with
  | beforeStart => rfl
  | during k =>
      simp only [Moment.isBefore, Nat.lt_add_one_iff_lt_or_eq, Bool.decide_or, Moment.during.injEq]
  | never => rfl

/-- What comes before a line comes before all later ones. -/
theorem Moment.isBefore_of_le {moment : Moment} {line later : Nat} (hle : line ≤ later)
    (hbefore : moment.isBefore line = true) : moment.isBefore later = true := by
  cases moment with
  | beforeStart => rfl
  | during k =>
      have hk : k < line := of_decide_eq_true hbefore
      exact decide_eq_true (Nat.lt_of_lt_of_le hk hle)
  | never => cases hbefore

/-- A moment that comes before some line comes before a first one: the one behind the line that is
worked at, if any. -/
theorem Moment.exists_first {moment : Moment} {last : Nat} (hlast : moment.isBefore last = true) :
    ∃ first ≤ last, (∀ line, moment.isBefore line = true ↔ first ≤ line) ∧
      (moment = .beforeStart → first = 0) ∧ ∀ line, moment = .during line → first = line + 1 := by
  cases moment with
  | beforeStart =>
      exact ⟨0, Nat.zero_le last, fun line => by simp [Moment.isBefore], by simp, by simp⟩
  | during k =>
      have hk : k < last := of_decide_eq_true hlast
      refine ⟨k + 1, hk, fun line => ?_, by simp, fun line heq => ?_⟩
      · exact decide_eq_true_iff.trans Nat.lt_iff_add_one_le
      · rw [Moment.during.inj heq]
  | never => cases hlast

/-! ### Observed tokenizers -/

/-- The surroundings of a tokenizer, with a token and with what has been asked so far. -/
structure Observed (V S : Type) where
  world : V
  token : CancellationToken
  asked : List (String × S)

namespace Observed

/-- Nothing has been asked yet. -/
def start (moment : Moment) (world : V) : Observed V S :=
  ⟨world, ⟨moment.isBefore 0⟩, []⟩

/-- The surroundings once a question has been answered, which left the world as given. The token is
cancelled if this was the moment. -/
def noted (moment : Moment) (question : String × S) (world : V) (observed : Observed V S) :
    Observed V S where
  world := world
  token :=
    if moment = .during observed.asked.length then observed.token.cancel else observed.token
  asked := observed.asked ++ [question]

/-- Does the work for a question, which notices nothing but the world. -/
def answer {α : Type} (moment : Moment) (question : String × S) (work : StateM V α) :
    StateM (Observed V S) α := fun observed =>
  let (found, world) := work.run observed.world
  (found, observed.noted moment question world)

theorem run_answer {α : Type} (moment : Moment) (question : String × S) (work : StateM V α)
    (observed : Observed V S) :
    (answer moment question work).run observed =
      let done := work.run observed.world
      (done.1, observed.noted moment question done.2) :=
  rfl

/-- Whether the token is cancelled, which is what the loop asks in front of each line. -/
def isCancelled (observed : Observed V S) : Bool := observed.token.isCancelled

/-- The token is cancelled exactly if the moment came before the next question. -/
def OnTime (moment : Moment) (observed : Observed V S) : Prop :=
  observed.isCancelled = moment.isBefore observed.asked.length

theorem onTime_start (moment : Moment) (world : V) :
    OnTime moment (start moment world : Observed V S) :=
  rfl

/-- The token stays on time with every question. -/
theorem OnTime.noted {moment : Moment} {observed : Observed V S} (ht : observed.OnTime moment)
    (question : String × S) (world : V) : (observed.noted moment question world).OnTime moment := by
  simp only [OnTime, Observed.isCancelled, Observed.noted, List.length_append,
    List.length_singleton]
  rw [Moment.isBefore_succ, ← ht, Observed.isCancelled]
  split
  · next hnow => simp [CancellationToken.cancel, hnow]
  · next hnot => simp [hnot]

end Observed

/-- The tokenizer, with a note of every question and with the token cancelled at a moment. -/
def Tokenizer.observed (moment : Moment) (tokenizer : Tokenizer V S) :
    Tokenizer (Observed V S) S where
  initial := tokenizer.initial
  classic line state delta :=
    Observed.answer moment (line, state) (tokenizer.classic line state delta)
  encoded line state delta :=
    Observed.answer moment (line, state) (tokenizer.encoded line state delta)

namespace Html

/-! ### Asking under observation -/

/-- What an observed tokenizer answers, it answers on its own; the questions are noted down in
order, and the token stays on time. -/
theorem run_askAll_observed (tokenizer : Tokenizer V S) (lines : List String) (state : S)
    {moment : Moment} {observed : Observed V S} (ht : observed.OnTime moment) :
    let alone := (askAll tokenizer lines state).run observed.world
    let both := (askAll (tokenizer.observed moment) lines state).run observed
    both.1 = alone.1 ∧ both.2.asked = observed.asked ++ alone.1.1.map Answer.question ∧
      both.2.OnTime moment := by
  induction lines generalizing state observed with
  | nil => exact ⟨rfl, (List.append_nil _).symm, ht⟩
  | cons line rest ih =>
      obtain ⟨⟨⟨words, stop⟩, world⟩, hfound⟩ : ∃ found,
        (tokenizer.encoded line state 0).run observed.world = found := ⟨_, rfl⟩
      have hboth : ((tokenizer.observed moment).encoded line state 0).run observed =
          ((words, stop), observed.noted moment (line, state) world) := by
        show (Observed.answer moment (line, state)
          (tokenizer.encoded line state 0)).run observed = _
        rw [Observed.run_answer, hfound]
      obtain ⟨hanswers, hasked, hontime⟩ := ih stop (ht.noted (line, state) world)
      rw [run_askAll_cons hfound, run_askAll_cons hboth]
      refine ⟨?_, ?_, hontime⟩
      · simp only [hanswers]
        rfl
      · rw [List.map_cons, ← List.singleton_append, ← List.append_assoc]
        exact hasked

/-- In front of a line, just the lines above it have been asked for, and the token is cancelled if
the moment came before that line. -/
theorem observed_in_front (tokenizer : Tokenizer V S) (moment : Moment) {lines : List String}
    {line : Nat} (hline : line ≤ lines.length) (world : V) :
    let answers := ((askAll tokenizer lines tokenizer.initial).run world).1.1
    let observed := ((askAll (tokenizer.observed moment) (lines.take line) tokenizer.initial).run
      (.start moment world)).2
    observed.asked = (answers.take line).map Answer.question ∧
      observed.isCancelled = moment.isBefore line := by
  intro answers observed
  obtain ⟨-, hasked, hontime⟩ := run_askAll_observed tokenizer (lines.take line)
    tokenizer.initial (Observed.onTime_start moment world)
  have hanswers : observed.asked = (answers.take line).map Answer.question := by
    rw [← take_askAll tokenizer line lines]
    exact hasked.trans (List.nil_append _)
  have hcount : observed.asked.length = line := by
    rw [hanswers, List.length_map, List.length_take, length_askAll, Nat.min_eq_left hline]
  exact ⟨hanswers, hontime.trans (congrArg (moment.isBefore ·) hcount)⟩

/-! ### Rendering under observation -/

variable (theme : TokenTheme) (options : RenderOptions)

/-- The work stops at the first line that the moment comes before. -/
theorem renderLines_observed_of_stop (tokenizer : Tokenizer V S) {moment : Moment}
    {lines : List String} {stop : Nat} (hstop : stop < lines.length)
    (hmoment : ∀ line, moment.isBefore line = true ↔ stop ≤ line) (world : V) :
    let answers := ((askAll tokenizer lines tokenizer.initial).run world).1.1
    let rendered := (renderLines theme options Observed.isCancelled (tokenizer.observed moment)
      lines tokenizer.initial .empty).run (.start moment world)
    rendered.1 = .error .cancelled ∧
      rendered.2.asked = (answers.take stop).map Answer.question := by
  intro answers rendered
  obtain ⟨hasked, hcancelled⟩ := observed_in_front tokenizer moment (Nat.le_of_lt hstop) world
  have hquiet : ∀ line < stop, Observed.isCancelled ((askAll (tokenizer.observed moment)
      (lines.take line) tokenizer.initial).run (.start moment world)).2 = false := by
    intro line hline
    obtain ⟨-, hfront⟩ :=
      observed_in_front tokenizer moment (Nat.le_of_lt (Nat.lt_trans hline hstop)) world
    rw [hfront, Bool.eq_false_iff]
    intro hbefore
    exact Nat.not_lt_of_le ((hmoment line).mp hbefore) hline
  have hrendered : rendered = (.error .cancelled, _) :=
    run_renderLines_of_cancelled hstop hquiet
      (hcancelled.trans ((hmoment stop).mpr (Nat.le_refl stop)))
  rw [hrendered]
  exact ⟨rfl, hasked⟩

/-- If the moment does not come before the last line, all lines are rendered. -/
theorem renderLines_observed_of_not_before (tokenizer : Tokenizer V S) {moment : Moment}
    {lines : List String} (hmoment : moment.isBefore (lines.length - 1) = false) (world : V) :
    let answers := ((askAll tokenizer lines tokenizer.initial).run world).1.1
    let rendered := (renderLines theme options Observed.isCancelled (tokenizer.observed moment)
      lines tokenizer.initial .empty).run (.start moment world)
    rendered.1 = .ok (String.ofList (answers.flatMap (Answer.html theme options))) ∧
      rendered.2.asked = answers.map Answer.question := by
  intro answers rendered
  have hquiet : ∀ line < lines.length, Observed.isCancelled ((askAll (tokenizer.observed moment)
      (lines.take line) tokenizer.initial).run (.start moment world)).2 = false := by
    intro line hline
    obtain ⟨-, hfront⟩ := observed_in_front tokenizer moment (Nat.le_of_lt hline) world
    rw [hfront, Bool.eq_false_iff]
    intro hbefore
    rw [Moment.isBefore_of_le (Nat.le_sub_one_of_lt hline) hbefore] at hmoment
    cases hmoment
  obtain ⟨hanswers, hasked, -⟩ := run_askAll_observed tokenizer lines tokenizer.initial
    (Observed.onTime_start moment world)
  have hrendered : rendered = _ := run_renderLines_of_quiet hquiet
  rw [hrendered]
  refine ⟨?_, hasked.trans (List.nil_append _)⟩
  simp only [hanswers, text_rendered_empty]
  rfl

end Html

/-! ### The main result -/

open Html

/-- What a rendering comes to whose tokenizer gives certain answers on its own, if its token is
cancelled at a certain moment. -/
structure AllOrNothing (moment : Moment) (answers : List (Answer S)) (html : String)
    (result : Except Fault String) (asked : List (String × S)) : Prop where
  /-- The work is given up exactly if the moment comes before the last line is started. -/
  cancelled_iff : result = .error .cancelled ↔ moment.isBefore (answers.length - 1) = true
  /-- Work that was cancelled in advance asks for no line. -/
  inAdvance : moment = .beforeStart → asked = []
  /-- Work that is given up behind a line has asked for the lines up to that one. -/
  midway : ∀ line, moment = .during line → line < answers.length - 1 →
    asked = (answers.take (line + 1)).map Answer.question
  /-- Otherwise all lines are asked for and rendered, with the same result at whatever moment. -/
  otherwise : moment.isBefore (answers.length - 1) = false →
    result = .ok html ∧ asked = answers.map Answer.question

theorem allOrNothing_renderLines (theme : TokenTheme) (options : RenderOptions)
    (tokenizer : Tokenizer V S) (moment : Moment) {lines : List String} (hlines : lines ≠ [])
    (world : V) :
    let answers := ((askAll tokenizer lines tokenizer.initial).run world).1.1
    let rendered := (renderLines theme options Observed.isCancelled (tokenizer.observed moment)
      lines tokenizer.initial .empty).run (.start moment world)
    AllOrNothing moment answers (String.ofList (answers.flatMap (Answer.html theme options)))
      rendered.1 rendered.2.asked := by
  intro answers rendered
  have hpos : 0 < lines.length := List.length_pos_iff.mpr hlines
  have hlength : answers.length = lines.length :=
    length_askAll tokenizer lines tokenizer.initial world
  by_cases hbefore : moment.isBefore (lines.length - 1) = true
  · obtain ⟨first, hfirst, hmoment, hadvance, hmidway⟩ := Moment.exists_first hbefore
    obtain ⟨hresult, hasked⟩ := renderLines_observed_of_stop theme options tokenizer
      (Nat.lt_of_le_of_lt hfirst (Nat.sub_one_lt_of_lt hpos)) hmoment world
    refine ⟨?_, fun heq => ?_, fun line heq _ => ?_, fun hnot => ?_⟩
    · exact ⟨fun _ => hlength ▸ hbefore, fun _ => hresult⟩
    · exact hasked.trans (by rw [hadvance heq]; rfl)
    · exact hasked.trans (by rw [hmidway line heq])
    · rw [hlength, hbefore] at hnot
      cases hnot
  · have hnot : moment.isBefore (lines.length - 1) = false := Bool.eq_false_iff.mpr hbefore
    have hall := renderLines_observed_of_not_before theme options tokenizer hnot world
    refine ⟨?_, fun heq => ?_, fun line heq hline => ?_, fun _ => hall⟩
    · rw [hlength, hnot, hall.1]
      simp
    · subst heq
      exact absurd rfl hbefore
    · subst heq
      exact absurd (decide_eq_true (hlength ▸ hline)) hbefore

/-- **The rendering is all or nothing.** The tokenizer is asked for the lines of a text, each from
the end state of the line before. At whatever moment the token is cancelled, the first poll ends the
rendering and leaves the registry alone: it is given up if the moment came before the last line, and
is all that the answers give otherwise, as without any cancelling. -/
theorem Highlighter.poll_allOrNothing (highlighter : Highlighter (Observed V S) S)
    (tokenizer : Tokenizer V S) (request : RenderRequest) (world : V) :
    let lines := Text.lines request.text
    let answers := ((askAll tokenizer lines tokenizer.initial).run world).1.1
    let html :=
      String.ofList (answers.flatMap (Answer.html highlighter.theme request.options))
    lines ≠ [] ∧ answers.map Answer.line = lines ∧
      (∀ answer ∈ answers.head?, answer.start = tokenizer.initial) ∧
      (answers.IsChain fun before answer => answer.start = before.stop) ∧
      ∀ (moment : Moment) (providers : Providers (Tokenizer (Observed V S) S)),
        providers.entries[request.language]? = some (.ready (tokenizer.observed moment)) →
        ∃ result after,
          (highlighter.poll Observed.isCancelled request.start).run
            (providers, .start moment world) = (.done result, (providers, after)) ∧
          AllOrNothing moment answers html result after.asked := by
  intro lines answers html
  obtain ⟨hstart, hchain⟩ := isChain_askAll tokenizer lines tokenizer.initial world
  have hlines : lines ≠ [] := by
    simp [lines, Text.lines, Text.linesOf_ne_nil]
  refine ⟨hlines, map_line_askAll tokenizer lines tokenizer.initial world, hstart, hchain, ?_⟩
  intro moment providers hready
  exact ⟨_, _, Highlighter.run_poll_of_ready hready (.start moment world),
    allOrNothing_renderLines highlighter.theme request.options tokenizer moment hlines world⟩

/-- A token that is cancelled while the second of three lines is tokenized: the third one is not
asked for, and nothing is given back. -/
theorem Highlighter.poll_allOrNothing_midway :
    let counting : Tokenizer Nat Nat :=
      ⟨0, fun _ state _ => pure ([], state), fun _ state _ => do
        modify (· + 1)
        return ([], state + 1)⟩
    let highlighter : Highlighter (Observed Nat Nat) Nat :=
      { theme := ⟨fun language _ => .plain language, fun _ => some .black⟩
        plain := counting.observed .never }
    let request : RenderRequest := ⟨"a\nb\nc", "words", {}⟩
    let providers := ({} : Providers _).register "words" (counting.observed (.during 1))
    providers.entries["words"]? = some (.ready (counting.observed (.during 1))) ∧
      ∃ after,
        (highlighter.poll Observed.isCancelled request.start).run
          (providers, .start (.during 1) 7) = (.done (.error .cancelled), (providers, after)) ∧
        after.asked = [("a", 0), ("b", 1)] := by
  intro counting highlighter request providers
  have hready : providers.entries["words"]? = some (.ready (counting.observed (.during 1))) := by
    simp [providers, Providers.register]
  have hlines : Text.lines request.text = ["a", "b", "c"] := by decide +kernel
  obtain ⟨-, -, -, -, hpoll⟩ := highlighter.poll_allOrNothing counting request 7
  obtain ⟨result, after, hrun, hall⟩ := hpoll (.during 1) providers hready
  rw [hlines] at hall
  obtain rfl : result = .error .cancelled := hall.cancelled_iff.mpr rfl
  exact ⟨hready, after, hrun, hall.midway 1 rfl (by decide)⟩

end Highlight
