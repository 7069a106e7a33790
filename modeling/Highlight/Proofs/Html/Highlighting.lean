import Highlight.Line.Tokenizer
import Highlight.Proofs.Html.Reading

/-!
# Lines are highlighted by their tokens

A line goes through four stages: its tokens get corrected starts, tokens of equal looks are joined
to runs, the runs are encoded in words, and stretches are cut out of the line by the words. Whatever
a grammar reports, what comes out is the line itself, each character once and in order, and every
character is written in the style of the last token that starts no later. This is what a reader of
the rendered line finds (`readLine`), who knows nothing of tokens, words and stretches.
-/

namespace Highlight

/-! ### Tokens that cover a position -/

/-- The token that covers a position: the last one that starts no later. -/
def covering? (tokens : List Token) (position : Nat) : Option Token :=
  tokens.findRev? fun token => token.start.toNat ≤ position

theorem lookAt_tokenMarks (language : Language) (word : String → Metadata)
    (tokens : List RawToken) (position : Nat) :
    lookAt (tokenMarks word (corrected tokens)) position none =
      (covering? (classicTokens language 0 tokens) position).map (word ·.scopes) := by
  unfold lookAt tokenMarks covering? classicTokens
  simp only [List.findRev?_eq_find?_reverse, ← List.map_reverse, List.find?_map,
    Option.map_map, Option.or_none, UInt64.add_zero]
  rfl

/-- If there are tokens, then every position is covered. -/
theorem exists_covering? {language : Language} {tokens : List RawToken} (hsome : tokens ≠ [])
    (position : Nat) :
    ∃ token, covering? (classicTokens language 0 tokens) position = some token := by
  cases tokens with
  | nil => exact absurd rfl hsome
  | cons token rest =>
      -- the first token starts with the line, wherever it was reported to start
      obtain ⟨first, hfirst⟩ : ∃ first : Token, first = ⟨0, token.scopes, language.name⟩ := ⟨_, rfl⟩
      have hmem : first ∈ (classicTokens language 0 (token :: rest)).reverse := by
        subst hfirst
        exact List.mem_reverse.mpr List.mem_cons_self
      rw [covering?, List.findRev?_eq_find?_reverse, ← Option.isSome_iff_exists]
      exact List.find?_isSome.mpr ⟨first, hmem, by simp [hfirst]⟩

namespace Html

/-! ### Written runs -/

/-- Writes runs one after the other, with the cursor carried over from one to the next. -/
def writeRuns (options : RenderOptions) (cursor : Cursor) : List StyledRun → List Char
  | [] => []
  | run :: rest =>
    let (content, next) := spellAll options cursor run.chars
    openTag run.style ++ content ++ closeTag ++ writeRuns options next rest

theorem renderStretches_eq (theme : TokenTheme) (options : RenderOptions) (line : List Char)
    (cursor : Cursor) (stretches : List Stretch) :
    renderStretches theme options line cursor stretches =
      writeRuns options cursor (stretches.map (·.run theme line)) := by
  induction stretches generalizing cursor with
  | nil => rfl
  | cons stretch rest ih => simp only [renderStretches, List.map_cons, writeRuns, ih,
      Stretch.run]

/-- The style of a look; without a look there is none. -/
def styleOfLook (theme : TokenTheme) (look : Option Metadata) : String :=
  (look.map (styleText theme)).getD ""

/-- The style that the tokens of a line give a position. -/
def styleAt (theme : TokenTheme) (language : LanguageId) (tokens : List Token)
    (position : Nat) : String :=
  styleOfLook theme ((covering? tokens position).map (theme.word language ·.scopes))

theorem flatMap_styled_run (theme : TokenTheme) (line : List Char)
    (stretches : List Stretch) :
    (stretches.map (·.run theme line)).flatMap StyledRun.styled =
      (stretches.flatMap (·.marked line)).map fun (look, c) => (styleOfLook theme look, c) := by
  rw [List.flatMap_map, List.map_flatMap]
  refine List.flatMap_congr fun stretch _ => ?_
  rw [Stretch.marked, List.map_map]
  rfl

/-! ### The main theorem -/

/-- The stretches cut out of a line by the words of its tokens give every character the look of the
token that covers it. -/
theorem flatMap_marked_encodedRuns (language : Language) (word : String → Metadata)
    (tokens : List RawToken) {line : List Char} (hlength : line.length < 2 ^ 32) :
    (stretches line.length (Run.toWords (encodedRuns word 0 tokens))).flatMap (·.marked line) =
      markedBy (fun position =>
        (covering? (classicTokens language 0 tokens) position).map (word ·.scopes)) 0 line := by
  have hruns := Run.ofWords_toWords (encodedRuns word 0 tokens)
  have htiled : (stretches line.length (Run.toWords (encodedRuns word 0 tokens))).flatMap
      (·.marked line) = markedBy (lookAt (runMarks (encodedRuns word 0 tokens)) · none) 0 line := by
    rw [flatMap_marked_stretches line, hruns]
    · rw [hruns]
      exact start_head?_encodedRuns word tokens
    · rw [hruns]
      exact startsFrom_encodedRuns word tokens
  rw [htiled]
  refine markedBy_congr fun position _ hposition => ?_
  rw [lookAt_encodedRuns word tokens (by omega), lookAt_tokenMarks]

variable {W S : Type} [DecidableEq S]

/-- **Lines are highlighted by their tokens.** What is written for the words of a line is a sequence
of runs that hold the characters of the line, each once and in order, and these runs are what a
reader of it finds: their styles, and what is seen of their characters. The character at a position
is in a run whose style is that of the token that covers the position, and only a line without
tokens has positions that are not covered: that one is a single run without style. -/
theorem renderLine_encoded (language : Language) (grammar : Grammar S) (theme : TokenTheme)
    (options : RenderOptions) (line : String) (state : S) (surroundings : W)
    (hlength : line.length < 2 ^ 32) :
    let tokenizer : Tokenizer W S := .ofGrammar language grammar theme
    let tokens := ((tokenizer.classic line state 0).run surroundings).1.1
    let words := ((tokenizer.encoded line state 0).run surroundings).1.1
    let html := renderLine theme options line.toList words
    ∃ runs : List StyledRun,
      html = openTag "" ++ writeRuns options {} runs ++ closeTag ∧
        readLine html = some (shownRuns options.tabSize 0 runs) ∧
        runs.flatMap StyledRun.styled =
          line.toList.mapIdx (fun position c => (styleAt theme language.id tokens position, c)) ∧
        ((grammar.tokenize line state).tokens ≠ [] →
          ∀ position, ∃ token, covering? tokens position = some token) ∧
        ((grammar.tokenize line state).tokens = [] → runs = [⟨"", line.toList⟩]) := by
  intro tokenizer tokens words html
  have htokens : tokens = classicTokens language 0 (grammar.tokenize line state).tokens := rfl
  have hwords : words = Run.toWords
      (encodedRuns (theme.word language.id) 0 (grammar.tokenize line state).tokens) := rfl
  refine ⟨(stretches line.toList.length words).map (·.run theme line.toList), ?_,
    readLine_renderLine theme options line.toList words, ?_, ?_, ?_⟩
  · exact congrArg (openTag "" ++ · ++ closeTag) (renderStretches_eq ..)
  · rw [flatMap_styled_run, hwords, flatMap_marked_encodedRuns language _ _ hlength]
    exact map_markedBy ..
  · intro hsome position
    rw [htokens]
    exact exists_covering? hsome position
  · intro hnone
    rw [hwords, hnone]
    show [Stretch.run theme line.toList ⟨0, line.toList.length, none⟩] = _
    rw [Stretch.run, Stretch.chars_last]
    rfl

/-- Four tokens with bad starts: the first is moved to the start of the line, the second is cut to
nothing because the third is moved up to it, and the last is behind the end. The tab reaches from
the second column to the fourth. -/
theorem renderLine_encoded_clamped :
    let theme : TokenTheme :=
      ⟨fun language scopes => .pack language .other (if scopes = "c" then .bold else .none) 1 2,
        fun _ => none⟩
    let grammar : Grammar Unit :=
      ⟨(), fun _ _ => ⟨[⟨5, "a"⟩, ⟨2, "b"⟩, ⟨-1, "c"⟩, ⟨9, "a"⟩], ()⟩, fun _ _ => true⟩
    let tokenizer : Tokenizer Unit Unit := .ofGrammar ⟨"toy", ⟨1⟩⟩ grammar theme
    let line := "<\ty"
    let words := ((tokenizer.encoded line () 0).run ()).1.1
    let html := renderLine theme {} line.toList words
    line.length < 2 ^ 32 ∧
      html = ("<span><span>&lt;   </span><span style=\"font-weight: bold;\">y</span>" ++
        "<span></span></span>").toList ∧
      ∃ runs : List StyledRun,
        readLine html = some (shownRuns 4 0 runs) ∧
          runs.flatMap StyledRun.styled =
            [("", '<'), ("", '\t'), ("font-weight: bold;", 'y')] ∧
          shownRuns 4 0 runs =
            [⟨"", "<   ".toList⟩, ⟨"font-weight: bold;", ['y']⟩, ⟨"", []⟩] := by
  intro theme grammar tokenizer line words html
  have hlength : line.length < 2 ^ 32 := by decide
  obtain ⟨runs, -, hread, hstyled, -, -⟩ :=
    renderLine_encoded ⟨"toy", ⟨1⟩⟩ grammar theme {} line () () hlength
  have hhtml : html = ("<span><span>&lt;   </span><span style=\"font-weight: bold;\">y</span>" ++
      "<span></span></span>").toList := by decide +kernel
  refine ⟨hlength, hhtml, runs, hread, hstyled.trans (by decide +kernel), ?_⟩
  have hfound : readLine html =
      some [⟨"", "<   ".toList⟩, ⟨"font-weight: bold;", ['y']⟩, ⟨"", []⟩] := by
    rw [hhtml]
    decide +kernel
  exact Option.some.inj (hread.symm.trans hfound)

end Html

end Highlight
