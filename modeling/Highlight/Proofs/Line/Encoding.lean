import Highlight.Line.Tokenizer
import Highlight.Proofs.Line.Runs
import Mathlib.Data.List.SplitBy

/-!
# The two forms of a line agree

The encoded form of a line is the classic form with the tokens left out that look like the one
before. What is kept is a token for each maximal group of adjacent tokens of one look, namely the
first one (`openers`), so a run starts where the first of its tokens does.

Both forms come from the same tokens, corrected in the same way. The encoding carries the look of
the run under way, which is that of the last token whether that token was kept or left out; this is
why comparing with it is comparing with the token before (`openersBehind`).
-/

namespace Highlight

/-! ### Tokens that open a run -/

/-- The tokens that look different from the one before; there is none before the first one. -/
def openers (look : Token → Metadata) (tokens : List Token) : List Token :=
  (List.range tokens.length).filterMap fun i =>
    if i = 0 ∨ tokens[i]?.map look ≠ tokens[i - 1]?.map look then tokens[i]? else none

/-- The tokens that look different from the one before, behind a token of the given look. -/
def openersBehind (look : Token → Metadata) (before : Option Metadata) : List Token → List Token
  | [] => []
  | token :: rest =>
      if before = some (look token) then openersBehind look before rest
      else token :: openersBehind look (some (look token)) rest

variable {look : Token → Metadata}

/-- Behind a left-out token the run under way still has the look of that token. -/
theorem openersBehind_cons (before : Option Metadata) (token : Token) (rest : List Token) :
    openersBehind look before (token :: rest) =
      (if before = some (look token) then [] else [token]) ++
        openersBehind look (some (look token)) rest := by
  rw [openersBehind]
  split
  · next hsame => rw [hsame, List.nil_append]
  · rfl

theorem filterMap_range_eq_openersBehind (before : Token) (tokens : List Token) :
    ((List.range tokens.length).filterMap fun i =>
        if tokens[i]?.map look ≠ (before :: tokens)[i]?.map look then tokens[i]? else none) =
      openersBehind look (some (look before)) tokens := by
  induction tokens generalizing before with
  | nil => rfl
  | cons token rest ih =>
      -- the positions behind the first one are those of the rest, behind the first token
      rw [List.length_cons, List.range_succ_eq_map, List.filterMap_cons, List.filterMap_map,
        openersBehind_cons, ← ih token]
      by_cases hsame : look before = look token
      · simp [hsame]
      · simp [hsame, Ne.symm hsame]

/-- Comparing tokens by position is comparing each with the one before. -/
theorem openers_eq_openersBehind (look : Token → Metadata) (tokens : List Token) :
    openers look tokens = openersBehind look none tokens := by
  cases tokens with
  | nil => rfl
  | cons token rest =>
      rw [openers, List.length_cons, List.range_succ_eq_map, List.filterMap_cons,
        List.filterMap_map, openersBehind_cons, ← filterMap_range_eq_openersBehind token]
      simp

/-! ### Groups of one look -/

/-- Adjacent tokens of one look. -/
def SameLook (look : Token → Metadata) (token next : Token) : Bool := look token == look next

/-- Of a group of one look at most the first token opens a run. -/
theorem openersBehind_append {group rest : List Token} {token : Token}
    (hgroup : ∀ other ∈ group, look other = look token) :
    openersBehind look (some (look token)) (group ++ rest) =
      openersBehind look (some (look token)) rest := by
  induction group with
  | nil => rfl
  | cons other group ih =>
      have hother := hgroup other List.mem_cons_self
      have hlater := ih fun later hmem => hgroup later (List.mem_cons_of_mem other hmem)
      rw [List.cons_append, openersBehind_cons, hother, if_pos rfl, List.nil_append, hlater]

theorem look_eq_of_isChain {token : Token} {group : List Token}
    (hchain : (token :: group).IsChain fun a b => SameLook look a b) :
    ∀ other ∈ group, look other = look token := by
  have hpairwise : (token :: group).Pairwise fun a b => look a = look b := by
    refine List.isChain_iff_pairwise.mp (hchain.imp fun a b hab => ?_)
    exact beq_iff_eq.mp hab
  intro other hmem
  exact ((List.pairwise_cons.mp hpairwise).1 other hmem).symm

/-- The tokens that open a run are the first ones of the groups, when no group has the look of the
one before it. -/
theorem openersBehind_flatten {before : Option Metadata} {groups : List (List Token)}
    (hne : [] ∉ groups)
    (hsame : ∀ group ∈ groups, group.IsChain fun a b => SameLook look a b)
    (hdiffer : groups.IsChain fun a b => ∃ ha hb, SameLook look (a.getLast ha) (b.head hb) = false)
    (hbefore : ∀ group ∈ groups.head?, ∀ token ∈ group.head?, before ≠ some (look token)) :
    openersBehind look before groups.flatten = groups.filterMap List.head? := by
  induction groups generalizing before with
  | nil => rfl
  | cons group groups ih =>
      cases group with
      | nil => exact absurd List.mem_cons_self hne
      | cons token group =>
          have hlook := look_eq_of_isChain (hsame _ List.mem_cons_self)
          have hfirst : before ≠ some (look token) := hbefore _ rfl token rfl
          have hrest : openersBehind look (some (look token)) groups.flatten =
              groups.filterMap List.head? := by
            refine ih (fun hmem => hne (List.mem_cons_of_mem _ hmem))
              (fun later hmem => hsame later (List.mem_cons_of_mem _ hmem)) hdiffer.tail ?_
            intro next hnext other hother hlooks
            obtain ⟨hgroup, hhead, hdifferent⟩ := (List.isChain_cons.mp hdiffer).1 next hnext
            have hlast : look ((token :: group).getLast hgroup) = look token := by
              rcases List.mem_cons.mp (List.getLast_mem hgroup) with heq | hmem
              · rw [heq]
              · exact hlook _ hmem
            have hother : next.head hhead = other := List.head_of_mem_head? hother
            rw [SameLook, hlast, hother, Option.some.inj hlooks] at hdifferent
            simp at hdifferent
          rw [List.flatten_cons, List.cons_append, openersBehind_cons, if_neg hfirst,
            openersBehind_append hlook, hrest]
          rfl

theorem openers_eq_heads (look : Token → Metadata) (tokens : List Token) :
    openers look tokens = (tokens.splitBy (SameLook look)).filterMap List.head? := by
  obtain ⟨hflatten, hne, hsame, hdiffer⟩ :=
    List.splitBy_eq_iff.mp (rfl : tokens.splitBy (SameLook look) = _)
  rw [openers_eq_openersBehind]
  conv => lhs; rw [hflatten]
  exact openersBehind_flatten hne hsame hdiffer fun _ _ _ _ hlook => nomatch hlook

/-- Every group has a first token, so as many tokens are kept as there are groups. -/
theorem length_openers (look : Token → Metadata) (tokens : List Token) :
    (openers look tokens).length = (tokens.splitBy (SameLook look)).length := by
  rw [openers_eq_heads]
  have hne := List.nil_notMem_splitBy (SameLook look) tokens
  generalize tokens.splitBy (SameLook look) = groups at hne
  induction groups with
  | nil => rfl
  | cons group groups ih =>
      cases group with
      | nil => exact absurd List.mem_cons_self hne
      | cons token group =>
          have hrest := ih fun hmem => hne (List.mem_cons_of_mem _ hmem)
          rw [List.filterMap_cons, List.head?_cons, List.length_cons, List.length_cons, hrest]

/-- A kept token looks different from the one kept before it, too. -/
theorem isChain_look_openersBehind (look : Token → Metadata) (before : Option Metadata)
    (tokens : List Token) :
    (before :: (openersBehind look before tokens).map fun token => some (look token)).IsChain
      (· ≠ ·) := by
  induction tokens generalizing before with
  | nil => exact List.isChain_singleton before
  | cons token rest ih =>
      rw [openersBehind]
      split
      · exact ih before
      · next hdifferent => exact List.isChain_cons_cons.mpr ⟨hdifferent, ih _⟩

/-! ### From tokens to words -/

/-- The run that a token opens. -/
def Token.run (look : Token → Metadata) (delta : UInt64) (token : Token) : Run :=
  ⟨encodedStart (saturatingAdd token.start delta), look token⟩

/-- The classic form of corrected tokens. -/
def asClassic (language : Language) (tokens : List (UInt64 × RawToken)) : List Token :=
  tokens.map fun (start, token) => ⟨start, token.scopes, language.name⟩

theorem classicTokens_zero (language : Language) (tokens : List RawToken) :
    classicTokens language 0 tokens = asClassic language (corrected tokens) := by
  simp only [classicTokens, asClassic, UInt64.add_zero]

theorem runsFrom_eq_map_run (language : Language) (word : String → Metadata) (delta : UInt64)
    (previous : Option Metadata) (tokens : List (UInt64 × RawToken)) :
    runsFrom word delta previous tokens =
      (openersBehind (fun token => word token.scopes) previous (asClassic language tokens)).map
        (Token.run (fun token => word token.scopes) delta) := by
  induction tokens generalizing previous with
  | nil => rfl
  | cons first rest ih =>
      obtain ⟨start, token⟩ := first
      show runsFrom word delta previous ((start, token) :: rest) = (openersBehind _ previous
        (⟨start, token.scopes, language.name⟩ :: asClassic language rest)).map _
      simp only [runsFrom, openersBehind]
      split
      · exact ih previous
      · rw [List.map_cons, ih]
        rfl

/-- **The runs of a line are opened by the tokens that look different from the one before.** -/
theorem encodedRuns_eq_map_run (language : Language) (word : String → Metadata) (delta : UInt64)
    (tokens : List RawToken) :
    encodedRuns word delta tokens =
      (openers (fun token => word token.scopes) (classicTokens language 0 tokens)).map
        (Token.run (fun token => word token.scopes) delta) := by
  rw [openers_eq_openersBehind, encodedRuns, runsFrom_eq_map_run language, classicTokens_zero]

theorem length_toWords (runs : List Run) : (Run.toWords runs).length = 2 * runs.length := by
  induction runs with
  | nil => rfl
  | cons run rest ih =>
      have hcons : Run.toWords (run :: rest) = run.start :: run.metadata.bits :: Run.toWords rest :=
        rfl
      rw [hcons, List.length_cons, List.length_cons, ih, List.length_cons]
      omega

/-! ### The main result -/

/-- **The two forms of a line agree.** The words of a line are those of the tokens of its classic
form that look different from the token before, in order: the start, moved by `delta` and cut to 32
bits, and the look. These tokens are the first ones of the maximal groups of adjacent tokens of one
look, so there are two words per group; adjacent runs look different and starts do not go back. If
the grammar gives the same end state again, then both forms do. -/
theorem encoded_eq_openers {W S : Type} [DecidableEq S] (language : Language)
    (grammar : Grammar S) (theme : TokenTheme) (line : String) (state : S) (delta : UInt64)
    (surroundings : W) :
    let tokenizer : Tokenizer W S := .ofGrammar language grammar theme
    let look : Token → Metadata := fun token => theme.word language.id token.scopes
    let tokens := ((tokenizer.classic line state 0).run surroundings).1.1
    let words := ((tokenizer.encoded line state delta).run surroundings).1.1
    let endState := ((tokenizer.encoded line state delta).run surroundings).1.2
    words.map UInt32.toNat =
        (openers look tokens).flatMap (fun token =>
          [min (token.start.toNat + delta.toNat) (2 ^ 32 - 1), (look token).bits.toNat]) ∧
      openers look tokens = (tokens.splitBy (SameLook look)).filterMap List.head? ∧
      words.length = 2 * (tokens.splitBy (SameLook look)).length ∧
      ((Run.ofWords words).map Run.metadata).IsChain (· ≠ ·) ∧
      ((Run.ofWords words).map Run.start).IsChain (· ≤ ·) ∧
      ∀ (again : Grammar S) (other : UInt64), again.alike = grammar.alike →
        (again.tokenize line state).endState = (grammar.tokenize line state).endState →
        (((Tokenizer.ofGrammar language again theme).classic line state other).run
          surroundings).1.2 = endState := by
  intro tokenizer look tokens words endState
  have hwords : words = Run.toWords ((openers look tokens).map (Token.run look delta)) :=
    congrArg Run.toWords (encodedRuns_eq_map_run language (theme.word language.id) delta
      (grammar.tokenize line state).tokens)
  have hruns : Run.ofWords words = (openers look tokens).map (Token.run look delta) := by
    rw [hwords, Run.ofWords_toWords]
  refine ⟨?_, openers_eq_heads look tokens, ?_, ?_, ?_, ?_⟩
  · rw [hwords, Run.toWords, List.map_flatMap, List.flatMap_map]
    refine List.flatMap_congr fun token _ => ?_
    simp only [Token.run, List.map_cons, List.map_nil, toNat_encodedStart_saturatingAdd]
  · rw [hwords, length_toWords, List.length_map, length_openers]
  · have hchain := (isChain_look_openersBehind look none tokens).tail
    rw [List.tail_cons, ← openers_eq_openersBehind, List.isChain_map] at hchain
    rw [hruns, List.map_map, List.isChain_map]
    exact hchain.imp fun _ _ hne heq => hne (congrArg some heq)
  · have hstarts := (startsFrom_runsFrom (theme.word language.id) delta none
      (startsFrom_corrected (grammar.tokenize line state).tokens)).tail
    rw [List.tail_cons, runMarks, List.map_map, List.isChain_map] at hstarts
    have hencoded : Run.ofWords words = runsFrom (theme.word language.id) delta none
        (corrected (grammar.tokenize line state).tokens) := Run.ofWords_toWords _
    rw [hencoded, List.isChain_map]
    exact hstarts.imp fun _ _ hle => UInt32.le_iff_toNat_le.mpr hle
  · intro again other halike hend
    show again.settle state _ = grammar.settle state _
    rw [Grammar.settle, Grammar.settle, halike, hend]

/-- Five tokens of two looks, two of them reported too early, and moved so far that the last one
does not fit 32 bits. -/
theorem encoded_eq_openers_cut :
    let theme : TokenTheme :=
      ⟨fun language scopes => .pack language .other (if scopes = "b" then .bold else .none) 1 2,
        fun _ => none⟩
    let grammar : Grammar Bool :=
      ⟨false, fun _ state => ⟨[⟨-3, "a"⟩, ⟨2, "a"⟩, ⟨4, "b"⟩, ⟨1, "a"⟩, ⟨9, "b"⟩], !state⟩,
        fun _ _ => false⟩
    let again : Grammar Bool := { grammar with tokenize := fun _ _ => ⟨[], true⟩ }
    let encoding : Tokenizer Unit Bool := .ofGrammar ⟨"toy", ⟨1⟩⟩ grammar theme
    let other : Tokenizer Unit Bool := .ofGrammar ⟨"toy", ⟨1⟩⟩ again theme
    let answer := ((encoding.encoded "x y" false 4294967289).run ()).1
    let thin := theme.word ⟨1⟩ "a"
    let bold := theme.word ⟨1⟩ "b"
    again.alike = grammar.alike ∧
      (again.tokenize "x y" false).endState = (grammar.tokenize "x y" false).endState ∧
      answer.1.map UInt32.toNat =
        [4294967289, thin.bits.toNat, 4294967293, bold.bits.toNat, 4294967293, thin.bits.toNat,
          4294967295, bold.bits.toNat] ∧
      ((other.classic "x y" false 0).run ()).1.2 = answer.2 := by
  intro theme grammar again encoding other answer thin bold
  obtain ⟨hwords, -, -, -, -, hend⟩ :=
    encoded_eq_openers ⟨"toy", ⟨1⟩⟩ grammar theme "x y" false 4294967289 ()
  exact ⟨rfl, rfl, hwords.trans (by decide +kernel), hend again 0 rfl rfl⟩

end Highlight
