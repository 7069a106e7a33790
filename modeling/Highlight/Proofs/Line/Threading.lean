import Highlight.Line.Tokenizer
import Mathlib.Data.List.Forall2

/-!
# Reused states

A tokenizer gives the state in front of a line back if the grammar ends the line in that instance or
in one that is alike, and hands on the grammar's own end state otherwise. Over the lines of a text
the instances that callers hold drift away from those that the grammar hands on by itself. The
invariant of the two runs is that in front of every line the two states are alike
(`Extensional.agrees_step`). So a grammar that does not tell like states apart reports the same in
both, and an instance is kept exactly where the grammar's own run ends a line as it started it.

A grammar may make new instances each time it is asked. It is therefore given call by call, and the
calls of the two runs are not the same ones.
-/

namespace Highlight

variable {W S : Type}

/-! ### Asking for lines in either form -/

/-- The forms in which the tokens of a line can be asked for. -/
inductive TokenForm where
  | classic
  | encoded

/-- A line whose tokens are asked for, in one form and with starts moved by `delta`. -/
structure LineQuery where
  line : String
  form : TokenForm
  delta : UInt64

/-- The tokens of a line in the form that was asked for. -/
inductive LineTokens where
  | classic (tokens : List Token)
  | encoded (words : List UInt32)

/-- A line as it is passed: the state in front of it, its tokens and the state behind it. -/
structure Passage (S : Type) where
  before : S
  tokens : LineTokens
  after : S

/-- What the raw tokens of a line become in the form that was asked for. -/
def LineQuery.tokensOf (query : LineQuery) (language : Language) (theme : TokenTheme)
    (tokens : List RawToken) : LineTokens :=
  match query.form with
  | .classic => .classic (classicTokens language query.delta tokens)
  | .encoded =>
      .encoded (Run.toWords (encodedRuns (theme.word language.id) query.delta tokens))

/-- Asks for the tokens of a line. -/
def Tokenizer.ask (tokenizer : Tokenizer W S) (query : LineQuery) (state : S) :
    StateM W (LineTokens × S) :=
  match query.form with
  | .classic => do
      let (tokens, after) ← tokenizer.classic query.line state query.delta
      return (.classic tokens, after)
  | .encoded => do
      let (words, after) ← tokenizer.encoded query.line state query.delta
      return (.encoded words, after)

/-- Asks for lines one after the other, each from the state that was given back for the line
before. -/
def Tokenizer.thread (tokenizer : Nat → Tokenizer W S) :
    Nat → List LineQuery → S → StateM W (List (Passage S))
  | _, [], _ => return []
  | call, query :: rest, state => do
      let (tokens, after) ← (tokenizer call).ask query state
      let later ← Tokenizer.thread tokenizer (call + 1) rest after
      return ⟨state, tokens, after⟩ :: later

/-- The lines as they are passed if each starts in the very state in which the grammar ended the
line before. -/
def Grammar.thread (language : Language) (theme : TokenTheme) (grammar : Nat → Grammar S) :
    Nat → List LineQuery → S → List (Passage S)
  | _, [], _ => []
  | call, query :: rest, state =>
      let raw := (grammar call).tokenize query.line state
      ⟨state, query.tokensOf language theme raw.tokens, raw.endState⟩ ::
        Grammar.thread language theme grammar (call + 1) rest raw.endState

/-! ### Like states -/

/-- To be alike is an equivalence of states, the same at every call, and like states in front of a
line give the same tokens and like end states at whatever calls. -/
structure Grammar.Extensional (alike : S → S → Bool) (grammar : Nat → Grammar S) : Prop where
  alike_eq : ∀ call, (grammar call).alike = alike
  equivalence : Equivalence fun a b => alike a b = true
  tokens_eq : ∀ {a b}, alike a b = true → ∀ line call other,
    ((grammar call).tokenize line a).tokens = ((grammar other).tokenize line b).tokens
  alike_endState : ∀ {a b}, alike a b = true → ∀ line call other,
    alike ((grammar call).tokenize line a).endState ((grammar other).tokenize line b).endState =
      true

/-- A line has the tokens it has in the grammar's own run, and it keeps its instance exactly if that
run ends it in a state like the one it started in. -/
structure Passage.Agrees (alike : S → S → Bool) (kept own : Passage S) : Prop where
  tokens_eq : kept.tokens = own.tokens
  after_eq_iff : kept.after = kept.before ↔ alike own.after own.before = true

/-! ### One line -/

variable [DecidableEq S]

theorem Grammar.settle_eq_start_iff (grammar : Grammar S) (start produced : S) :
    grammar.settle start produced = start ↔
      produced = start ∨ grammar.alike produced start = true := by
  rw [Grammar.settle]
  split
  · next hkept => exact iff_of_true rfl hkept
  · next hgone => exact iff_of_false (fun heq => hgone (.inl heq)) hgone

theorem Grammar.settle_of_ne_start {grammar : Grammar S} {start produced : S}
    (hne : grammar.settle start produced ≠ start) : grammar.settle start produced = produced := by
  have hgone := mt (grammar.settle_eq_start_iff start produced).mpr hne
  rw [Grammar.settle, if_neg hgone]

/-- In either form a line gets the tokens and the end state of the same report. -/
theorem Tokenizer.run_ask_ofGrammar (language : Language) (grammar : Grammar S)
    (theme : TokenTheme) (query : LineQuery) (state : S) (w : W) :
    ((Tokenizer.ofGrammar language grammar theme).ask query state).run w =
      let raw := grammar.tokenize query.line state
      ((query.tokensOf language theme raw.tokens, grammar.settle state raw.endState), w) := by
  obtain ⟨line, form, delta⟩ := query
  cases form with
  | classic => rfl
  | encoded => rfl

namespace Grammar.Extensional

variable {alike : S → S → Bool} {grammar : Nat → Grammar S} {held own : S}

/-- Whichever instance is handed on, it is alike to the one that the grammar would hand on. -/
theorem alike_settle (h : Extensional alike grammar) {produced reported : S} (call : Nat)
    (hproduced : alike produced reported = true) :
    alike ((grammar call).settle held produced) reported = true := by
  rw [Grammar.settle, h.alike_eq]
  split
  · next hkept =>
      rcases hkept with rfl | hlike
      · exact hproduced
      · exact h.equivalence.trans (h.equivalence.symm hlike) hproduced
  · exact hproduced

/-- An instance is kept exactly if the grammar's own run ends the line as it started it. -/
theorem settle_eq_iff_alike (h : Extensional alike grammar) {produced reported : S} (call : Nat)
    (hstart : alike held own = true) (hproduced : alike produced reported = true) :
    (grammar call).settle held produced = held ↔ alike reported own = true := by
  rw [Grammar.settle_eq_start_iff, h.alike_eq]
  constructor
  · rintro (rfl | hkept)
    · exact h.equivalence.trans (h.equivalence.symm hproduced) hstart
    · exact h.equivalence.trans (h.equivalence.symm hproduced) (h.equivalence.trans hkept hstart)
  · intro hsame
    have hback := h.equivalence.trans hsame (h.equivalence.symm hstart)
    exact .inr (h.equivalence.trans hproduced hback)

/-! ### Whole texts -/

/-- From like states a line is passed alike, and what it leaves behind is alike again. -/
theorem agrees_step (h : Extensional alike grammar) (language : Language) (theme : TokenTheme)
    (query : LineQuery) (call other : Nat) (hstart : alike held own = true) (w : W) :
    let found := (((Tokenizer.ofGrammar language (grammar call) theme).ask query held).run w).1
    let raw := (grammar other).tokenize query.line own
    Passage.Agrees alike ⟨held, found.1, found.2⟩
        ⟨own, query.tokensOf language theme raw.tokens, raw.endState⟩ ∧
      alike found.2 raw.endState = true := by
  intro found raw
  have hfound : found = _ := congrArg Prod.fst
    (Tokenizer.run_ask_ofGrammar language (grammar call) theme query held w)
  have hend := h.alike_endState hstart query.line call other
  rw [hfound]
  refine ⟨⟨?_, h.settle_eq_iff_alike call hstart hend⟩, h.alike_settle call hend⟩
  show query.tokensOf language theme _ = query.tokensOf language theme _
  rw [h.tokens_eq hstart query.line call other]

/-- The two runs agree on every line if they start in like states, by induction on the lines that
are still to come. -/
theorem agrees_thread (h : Extensional alike grammar) (language : Language) (theme : TokenTheme)
    (queries : List LineQuery) (call other : Nat) (hstart : alike held own = true) (w : W) :
    List.Forall₂ (Passage.Agrees alike)
      ((Tokenizer.thread (fun call => .ofGrammar language (grammar call) theme) call queries
        held).run w).1
      (Grammar.thread language theme grammar other queries own) := by
  induction queries generalizing call other held own with
  | nil => exact .nil
  | cons query rest ih =>
      obtain ⟨hagrees, hnext⟩ := h.agrees_step language theme query call other hstart w
      have hask := Tokenizer.run_ask_ofGrammar language (grammar call) theme query held w
      rw [hask] at hagrees hnext
      simp only [Tokenizer.thread, StateT.run_bind, hask]
      exact .cons hagrees (ih (call + 1) (other + 1) hnext)

end Grammar.Extensional

/-- **Reused states change nothing.** A line ends in the instance it started in if the grammar ended
it in that instance or in one that is alike, and only then; otherwise it ends in the grammar's
instance. If the grammar does not tell like states apart, then from like states on the lines of a
text get the tokens they get without reuse, in whatever forms they are asked for, and a line keeps
its instance exactly if the grammar's own run ends it in a state like the one it started in. -/
theorem reused_states_agree (language : Language) (theme : TokenTheme) (grammar : Nat → Grammar S)
    (surroundings : W) :
    let tokenizer : Nat → Tokenizer W S := fun call => .ofGrammar language (grammar call) theme
    (∀ call query state,
      let produced := ((grammar call).tokenize query.line state).endState
      let after := (((tokenizer call).ask query state).run surroundings).1.2
      (after = state ↔ produced = state ∨ (grammar call).alike produced state = true) ∧
        (after ≠ state → after = produced)) ∧
      ∀ alike, Grammar.Extensional alike grammar →
        ∀ queries call other held own, alike held own = true →
          List.Forall₂ (Passage.Agrees alike)
            ((Tokenizer.thread tokenizer call queries held).run surroundings).1
            (Grammar.thread language theme grammar other queries own) := by
  intro tokenizer
  refine ⟨fun call query state => ?_, fun alike halike queries call other held own hstart => ?_⟩
  · have hask := Tokenizer.run_ask_ofGrammar language (grammar call) theme query state surroundings
    simp only [tokenizer, hask]
    exact ⟨Grammar.settle_eq_start_iff _ _ _, Grammar.settle_of_ne_start⟩
  · exact halike.agrees_thread language theme queries call other hstart surroundings

/-- A grammar that makes a new instance at every call, over a text that opens a comment in its
second line: only this line ends in another instance, and the third one is in the comment. -/
theorem reused_states_agree_comment :
    let theme : TokenTheme := ⟨fun language _ => .plain language, fun _ => none⟩
    let alike : Bool × Nat → Bool × Nat → Bool := fun a b => a.1 == b.1
    let grammar : Nat → Grammar (Bool × Nat) := fun call =>
      { initial := (false, call)
        tokenize := fun line state =>
          ⟨[⟨0, if state.1 then "comment" else "source"⟩], (state.1 || line == "/*", call)⟩
        alike }
    let queries : List LineQuery :=
      [⟨"a", .classic, 0⟩, ⟨"/*", .encoded, 3⟩, ⟨"b", .classic, 7⟩]
    let tokenizer : Nat → Tokenizer Unit (Bool × Nat) := fun call =>
      .ofGrammar ⟨"toy", ⟨1⟩⟩ (grammar call) theme
    let kept := ((Tokenizer.thread tokenizer 0 queries (false, 0)).run ()).1
    let plain := Grammar.thread ⟨"toy", ⟨1⟩⟩ theme grammar 5 queries (false, 9)
    Grammar.Extensional alike grammar ∧ alike (false, 0) (false, 9) = true ∧
      List.Forall₂ (Passage.Agrees alike) kept plain ∧
      kept.map Passage.before = [(false, 0), (false, 0), (true, 1)] ∧
      kept.map Passage.after = [(false, 0), (true, 1), (true, 1)] ∧
      plain.map Passage.after = [(false, 5), (true, 6), (true, 7)] := by
  intro theme alike grammar queries tokenizer kept plain
  have halike : Grammar.Extensional alike grammar := by
    refine ⟨fun _ => rfl, ⟨fun a => beq_self_eq_true a.1, fun h => ?_, fun h h' => ?_⟩, ?_, ?_⟩
    · exact beq_iff_eq.mpr (beq_iff_eq.mp h).symm
    · exact beq_iff_eq.mpr ((beq_iff_eq.mp h).trans (beq_iff_eq.mp h'))
    · intro a b h line call other
      simp only [grammar, beq_iff_eq.mp h]
    · intro a b h line call other
      simp only [alike, grammar, beq_iff_eq.mp h, beq_self_eq_true]
  have hagrees := (reused_states_agree ⟨"toy", ⟨1⟩⟩ theme grammar ()).2 alike halike queries 0 5
    (false, 0) (false, 9) rfl
  exact ⟨halike, rfl, hagrees, rfl, rfl, rfl⟩

end Highlight
