import Highlight.Proofs.Json.Reading
import Highlight.Proofs.Rule.Joining
import Highlight.Theme.Compile

/-!
# Scopes of rules in theme documents

A rule of a theme document has one scope, which may be a comma list, or a list of scopes. Compiling
cuts the comma list inside of one rule and makes one rule for each item of the list, so the themes
are not the same. They are *interchangeable*: all but their rules is the same, and whatever the
default style is, their rules are compiled into the same table (`RuleTable.ofRules_joined`). Adding
the same rule to interchangeable themes leaves interchangeable themes or gives the same fault, so
this carries over to all rules behind (`Likewise.foldlM`).

For texts, only the gap where the scope stands is looked at (`ThemeText`): one text in it is read as
one scope, and a list of texts as the list.
-/

namespace Highlight

open Json Reader

/-! ### Themes that differ in how their rules are put -/

namespace Theme

/-- The themes are the same but for their rules, and these are compiled into the same tables. -/
structure Interchangeable (theme other : Theme) : Prop where
  eq_but_rules : other = { theme with rules := other.rules }
  ofRules_eq : ∀ default,
    RuleTable.ofRules default other.rules = RuleTable.ofRules default theme.rules

variable {theme other : Theme}

theorem colorWithin_withRules (theme : Theme) (rules : List Rule) (bound : Nat) :
    ({ theme with rules } : Theme).colorWithin bound = theme.colorWithin bound := by
  induction bound with
  | zero => rfl
  | succ bound ih =>
      funext id
      rw [colorWithin, colorWithin, ih]
      rfl

theorem view_withRules (theme : Theme) (rules : List Rule) :
    ({ theme with rules } : Theme).view = theme.view := by
  rw [view, view, colorWithin_withRules]
  rfl

namespace Interchangeable

theorem attach (h : theme.Interchangeable other) (registry : ColorRegistry) :
    (theme.attach registry).Interchangeable (other.attach registry) where
  eq_but_rules := congrArg (Theme.attach · registry) h.eq_but_rules
  ofRules_eq := h.ofRules_eq

theorem view_eq (h : theme.Interchangeable other) : other.view = theme.view := by
  rw [h.eq_but_rules, view_withRules]

theorem ruleTable_eq (h : theme.Interchangeable other) : other.ruleTable = theme.ruleTable := by
  have hdefault : other.defaultStyle = theme.defaultStyle := by
    simp only [defaultStyle, color?, h.view_eq]
    rw [h.eq_but_rules]
  rw [ruleTable, hdefault, h.ofRules_eq, ruleTable]

end Interchangeable

end Theme

/-! ### Compiling -/

/-- Both end with the same fault, or both succeed with related results. -/
inductive Likewise {α β : Type} (related : α → β → Prop) : Except Fault α → Except Fault β → Prop
  | fault (fault : Fault) : Likewise related (.error fault) (.error fault)
  | ok {a : α} {b : β} (h : related a b) : Likewise related (.ok a) (.ok b)

namespace Likewise

variable {α β γ δ : Type} {related : α → β → Prop} {related' : γ → δ → Prop}

theorem bind {x : Except Fault α} {y : Except Fault β} (h : Likewise related x y)
    {f : α → Except Fault γ} {g : β → Except Fault δ}
    (hnext : ∀ a b, related a b → Likewise related' (f a) (g b)) :
    Likewise related' (x >>= f) (y >>= g) := by
  cases h with
  | fault fault => exact .fault fault
  | ok h => exact hnext _ _ h

/-- What both start with does not matter. -/
theorem bind_left (x : Except Fault α) {f : α → Except Fault γ} {g : α → Except Fault δ}
    (hnext : ∀ a, Likewise related' (f a) (g a)) : Likewise related' (x >>= f) (x >>= g) := by
  cases x with
  | error fault => exact .fault fault
  | ok a => exact hnext a

theorem foldlM {f : α → γ → Except Fault α} {g : β → γ → Except Fault β}
    (hstep : ∀ a b c, related a b → Likewise related (f a c) (g b c)) (l : List γ) {a : α} {b : β}
    (h : related a b) : Likewise related (l.foldlM f a) (l.foldlM g b) := by
  induction l generalizing a b with
  | nil => exact .ok h
  | cons c l ih =>
      rw [List.foldlM_cons, List.foldlM_cons]
      exact (hstep a b c h).bind fun _ _ => ih

end Likewise

namespace Theme

variable {theme other : Theme}

theorem Interchangeable.addRule (h : theme.Interchangeable other) (rule : RuleDocument) :
    Likewise Interchangeable (theme.addRule rule) (other.addRule rule) := by
  unfold Theme.addRule
  cases rule.settings.compile with
  | error fault => exact .fault fault
  | ok change =>
      by_cases hempty : rule.scopes.isEmpty
      · simp only [hempty]
        exact .ok ⟨by rw [h.eq_but_rules], h.ofRules_eq⟩
      · simp only [hempty]
        refine .ok ⟨by rw [h.eq_but_rules], fun default => ?_⟩
        have hrules := h.ofRules_eq default
        simp only [RuleTable.ofRules] at hrules
        simp only [RuleTable.ofRules, List.foldl_append, hrules]

/-- The comma list as the only scope and the list of scopes add rules that are compiled alike. -/
theorem addRule_joined (theme : Theme) {scopes : List String} (hscopes : scopes ≠ [])
    (settings : RuleSettings) :
    Likewise Interchangeable (theme.addRule ⟨[",".intercalate scopes], settings⟩)
      (theme.addRule ⟨scopes, settings⟩) := by
  unfold Theme.addRule
  cases settings.compile with
  | error fault => exact .fault fault
  | ok change =>
      have hlist : scopes.isEmpty = false := by simpa using hscopes
      simp only [hlist]
      refine .ok ⟨rfl, fun default => ?_⟩
      have hrules := RuleTable.ofRules_joined default theme.rules [] hscopes change
      rw [List.append_nil] at hrules
      exact hrules.symm

end Theme

/-- Wherever the rule stands in a document, the themes are interchangeable, or both compilations end
with the same fault. -/
theorem ThemeDocument.compile_joined (document : ThemeDocument) (before after : List RuleDocument)
    {scopes : List String} (hscopes : scopes ≠ []) (settings : RuleSettings) :
    Likewise Theme.Interchangeable
      ({ document with
        rules := before ++ ⟨[",".intercalate scopes], settings⟩ :: after } : ThemeDocument).compile
      ({ document with
        rules := before ++ ⟨scopes, settings⟩ :: after } : ThemeDocument).compile := by
  simp only [ThemeDocument.compile, List.foldlM_append, List.foldlM_cons]
  refine .bind_left _ fun theme => .bind_left _ fun theme => ?_
  refine (theme.addRule_joined hscopes settings).bind fun theme other hrules => ?_
  exact .foldlM (fun _ _ rule h => h.addRule rule) after hrules

/-! ### Texts -/

variable {written : List Char} {scopes : List String}

/-- A text is read as the only scope. -/
theorem reads_scopes_of_text {scope : String} (h : Reads Reader.text written scope) :
    Reads scopesReader written [scope] := by
  intro rest
  obtain ⟨tail, hpeek, htext⟩ := run_opened (h rest)
  -- the blanks in front are gone when the text is read, which makes no difference
  have hread : StateT.run Reader.text ('"' :: tail) = .ok (scope, rest) := by
    rw [Reader.text, StateT.run_bind, run_peek rfl]
    exact htext
  rw [scopesReader, StateT.run_bind, hpeek]
  change StateT.run (Reader.text >>= fun scope => pure [scope]) _ = _
  rw [StateT.run_bind, hread]
  rfl

/-- A list of texts is read as the list of scopes. -/
theorem reads_scopes_of_items (h : Reads (items Reader.text) written scopes) :
    Reads scopesReader written scopes := by
  intro rest
  obtain ⟨tail, hpeek, hlist⟩ := run_opened (h rest)
  rw [scopesReader, StateT.run_bind, hpeek]
  exact hlist

/-- A rule as it is written, from its scope and its settings. -/
def ruleText (scope settings : List Char) : List Char :=
  braced [entryText "scope" scope, entryText "settings" settings]

theorem reads_ruleText {settings : RuleSettings} {writtenSettings : List Char}
    (hscopes : Reads scopesReader written scopes)
    (hsettings : Reads RuleSettings.reader writtenSettings settings) :
    Reads RuleDocument.reader (ruleText written writtenSettings) ⟨scopes, settings⟩ := by
  refine reads_record (.cons rfl (by simp) (hscopes.map _)
    (.cons rfl (by simp) (hsettings.map _) (.nil _))) ?_ _
  simp [field]

/-- The fields of a theme document. -/
def ThemeDocument.fields : List (Reader.Field ThemeDocument) :=
  [field "name" .refused Reader.text fun s name => { s with name },
   field "type" .onlyInMaps (optional Reader.text) fun s kind => { s with kind },
   field "colors" .allowed colorsReader fun s colors => { s with colors },
   field "tokenColors" .allowed (items RuleDocument.reader) fun s rules => { s with rules }]

/-- The text of a theme document with a gap for the scope of one rule. The rules come last. -/
structure ThemeText where
  /-- The entries in front of the rules. -/
  front : List (List Char)
  /-- The rules in front of the gap. -/
  before : List (List Char)
  /-- The settings of the rule with the gap. -/
  settings : List Char
  /-- The rules behind the gap. -/
  after : List (List Char)

namespace ThemeText

/-- The text with a scope in the gap. -/
def fill (text : ThemeText) (scope : List Char) : String :=
  String.ofList (braced (text.front ++ [entryText "tokenColors"
    (bracketed (text.before ++ ruleText scope text.settings :: text.after))]))

/-- What is written around the gap is read as these parts of a document. -/
structure ReadsAs (text : ThemeText) (document : ThemeDocument) (before after : List RuleDocument)
    (settings : RuleSettings) : Prop where
  front : ∃ present, Enters ThemeDocument.fields text.front ({}, []) (document, present) ∧
    "name" ∈ present ∧ "tokenColors" ∉ present
  before : ReadsEach RuleDocument.reader text.before before
  settings : Reads RuleSettings.reader text.settings settings
  after : ReadsEach RuleDocument.reader text.after after

theorem ReadsAs.ofJson_fill {text : ThemeText} {document : ThemeDocument}
    {before after : List RuleDocument} {settings : RuleSettings}
    (h : text.ReadsAs document before after settings)
    (hscopes : Reads scopesReader written scopes) :
    ThemeDocument.ofJson (text.fill written) =
      .ok { document with rules := before ++ ⟨scopes, settings⟩ :: after } := by
  obtain ⟨present, hfront, hname, hnew⟩ := h.front
  have hrule : Begins (ruleText written text.settings) ∧
      Reads RuleDocument.reader (ruleText written text.settings) ⟨scopes, settings⟩ :=
    ⟨⟨_, _, rfl, rfl, by decide⟩, reads_ruleText hscopes h.settings⟩
  have hrules : ReadsEach RuleDocument.reader
      (text.before ++ ruleText written text.settings :: text.after)
      (before ++ ⟨scopes, settings⟩ :: after) :=
    List.rel_append h.before (.cons hrule h.after)
  have hentries := hfront.concat rfl hnew ((reads_items hrules).map _)
  refine (reads_record hentries ?_ "RawTheme").run
  simp [ThemeDocument.fields, field, hname]

/-- Whether one text or a list of texts stands in the gap, the themes are interchangeable. -/
theorem ReadsAs.load_fill {text : ThemeText} {document : ThemeDocument}
    {before after : List RuleDocument} {settings : RuleSettings}
    (h : text.ReadsAs document before after settings) (hscopes : scopes ≠ []) {one list : List Char}
    (hone : Reads Reader.text one (",".intercalate scopes))
    (hlist : Reads (items Reader.text) list scopes) :
    Likewise Theme.Interchangeable (Theme.load (.ok (text.fill one)))
      (Theme.load (.ok (text.fill list))) := by
  have hload (written : List Char) (document : ThemeDocument)
      (hread : ThemeDocument.ofJson (text.fill written) = .ok document) :
      Theme.load (.ok (text.fill written)) = document.compile := by
    change (ThemeDocument.ofJson (text.fill written)).mapError Fault.document >>= _ = _
    rw [hread]
    rfl
  rw [hload one _ (h.ofJson_fill (reads_scopes_of_text hone)),
    hload list _ (h.ofJson_fill (reads_scopes_of_items hlist))]
  exact document.compile_joined before after hscopes settings

end ThemeText

/-! ### The main result -/

/-- **Comma lists, lists of scopes and repeated rules mean the same.** A rule on the comma list of
scopes and a rule for each of them are compiled into the same table, whatever the rules in front of
them and behind them, even if the table has no room for their colors. So a document gives themes
that are interchangeable, or the same fault, whether one of its rules has the comma list as its only
scope or all of the scopes. So does the text of a document, whether one text or a list of texts
stands in place of the scope. Attached to a registry or not, interchangeable themes show the same
colors and have the same table of rules. -/
theorem joined_scopes {scopes : List String} (hscopes : scopes ≠ []) :
    let joined := ",".intercalate scopes
    (∀ default before change after,
      RuleTable.ofRules default (before ++ ⟨joined, change⟩ :: after) =
        RuleTable.ofRules default (before ++ scopes.map (⟨·, change⟩) ++ after)) ∧
    (∀ (document : ThemeDocument) before settings after,
      Likewise Theme.Interchangeable
        ({ document with
          rules := before ++ ⟨[joined], settings⟩ :: after } : ThemeDocument).compile
        ({ document with
          rules := before ++ ⟨scopes, settings⟩ :: after } : ThemeDocument).compile) ∧
    (∀ (text : ThemeText) document before settings after,
      text.ReadsAs document before after settings →
        ∀ one list, Reads Reader.text one joined → Reads (items Reader.text) list scopes →
          Likewise Theme.Interchangeable (Theme.load (.ok (text.fill one)))
            (Theme.load (.ok (text.fill list)))) ∧
    ∀ theme other : Theme, theme.Interchangeable other →
      other.view = theme.view ∧ other.ruleTable = theme.ruleTable ∧
        ∀ registry, (other.attach registry).view = (theme.attach registry).view ∧
          (other.attach registry).ruleTable = (theme.attach registry).ruleTable := by
  intro joined
  refine ⟨fun default before change after => ?_, fun document before settings after => ?_,
    fun text document before settings after h one list hone hlist => ?_, fun theme other h => ?_⟩
  · exact RuleTable.ofRules_joined default before after hscopes change
  · exact document.compile_joined before after hscopes settings
  · exact h.load_fill hscopes hone hlist
  · exact ⟨h.view_eq, h.ruleTable_eq, fun registry =>
      ⟨(h.attach registry).view_eq, (h.attach registry).ruleTable_eq⟩⟩

/-- A comma inside of one scope, no word in another and two words in a third, in the text of a theme
that can be loaded. -/
theorem joined_scopes_blank :
    let scopes := ["comment,doc", "", "source text"]
    let theme (scope : String) :=
      "\x7b\"name\":\"night\",\"tokenColors\":[\x7b\"scope\":" ++ scope ++
        ",\"settings\":\x7b\"foreground\":\"#0F0\"\x7d\x7d]\x7d"
    let one := theme "\"comment,doc,,source text\""
    let list := theme "[\"comment,doc\",\"\",\"source text\"]"
    scopes ≠ [] ∧ (Theme.load (.ok one)).isOk ∧
      Likewise Theme.Interchangeable (Theme.load (.ok one)) (Theme.load (.ok list)) := by
  intro scopes theme one list
  have hscopes : scopes ≠ [] := by decide
  let text : ThemeText :=
    { front := [entryText "name" (quotedText "night").toList]
      before := []
      settings := braced [entryText "foreground" (quotedText "#0F0").toList]
      after := [] }
  have htext : text.ReadsAs { name := "night" } [] [] { foregroundText := some "#0F0" } :=
    { front := ⟨["name"], .cons rfl (by decide) ((reads_text "night").map _) (.nil _),
        by decide, by decide⟩
      before := .nil
      settings := reads_record
        (.cons rfl (by decide) ((reads_optional_text "#0F0").map _) (.nil _)) (by simp [field]) _
      after := .nil }
  have hone : one = text.fill (quotedText (",".intercalate scopes)).toList := by decide
  have hlist : list = text.fill (compact (texts scopes)).toList := by decide
  obtain ⟨-, -, hload, -⟩ := joined_scopes hscopes
  refine ⟨hscopes, by decide +kernel, ?_⟩
  rw [hone, hlist]
  exact hload text _ _ _ _ htext _ _ (reads_text _) (reads_texts scopes)

end Highlight
