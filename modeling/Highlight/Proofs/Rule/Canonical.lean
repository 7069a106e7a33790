import Highlight.Proofs.Line.Encoding
import Highlight.Proofs.Rule.Meaning

/-!
# Words are canonical

The word of a scope path is made from its kind and its numbered style, and both can be read back
from it. So two paths have one word exactly if they have one kind and one numbered style. When the
default colors differ, no color has two numbers, and then numbered styles that stand for the same
style are the same (`Decodes.unique`): what looks alike has the same word. A color that was refused
shares the number of a default color, but then it is shown as that color too.

Runs are cut where words differ, which is where tokens look different or are of different kinds.
-/

namespace Highlight

/-! ### From words to looks -/

namespace RuleTable

variable (table : RuleTable) (language : LanguageId) (scopes : String)

theorem kind_word : (table.word language scopes).kind = TokenKind.ofScopes scopes := by
  rw [word, Metadata.kind_withLanguage, baseWord, Metadata.kind_pack]

/-- The style that a word stands for does not depend on its language. -/
theorem styleOf_withLanguage (m : Metadata) :
    table.styleOf (m.withLanguage language) = table.styleOf m := by
  simp only [styleOf, Metadata.foreground_withLanguage, Metadata.background_withLanguage,
    Metadata.fontStyle_withLanguage]

theorem styleOf_word_eq_style :
    table.styleOf (table.word language scopes) = table.style scopes := by
  rw [style, word, word, styleOf_withLanguage, styleOf_withLanguage]

/-- Tokens of one kind and one style. -/
def LookAlike (token next : Token) : Bool :=
  TokenKind.ofScopes token.scopes = TokenKind.ofScopes next.scopes ∧
    table.style token.scopes = table.style next.scopes

end RuleTable

/-! ### From looks to words -/

/-- A style has one numbered style only, if no color has two numbers. -/
theorem Decodes.unique {colors : ColorTable} (hnodup : colors.colors.Nodup)
    {numbered other : NumberedStyle} {style : Style} (h : Decodes colors numbered style)
    (hother : Decodes colors other style) : numbered = other := by
  have hforeground : numbered.foreground = other.foreground :=
    ColorTable.color?_injective hnodup h.foreground hother.foreground
  have hbackground : numbered.background = other.background :=
    ColorTable.color?_injective hnodup h.background hother.background
  have hfont : numbered.fontStyle = other.fontStyle := h.fontStyle.trans hother.fontStyle.symm
  cases numbered
  cases other
  simp_all only

namespace Compiled

variable {default : Style} {rules : List Rule} {table : RuleTable}

/-- Default colors that differ are numbered with all others once each. -/
theorem nodup_colors (hc : Compiled default rules table)
    (hcolors : default.foreground ≠ default.background) : table.colors.colors.Nodup := by
  have hdefaults : (ColorTable.ofDefaults default.foreground default.background).colors.Nodup := by
    simpa [ColorTable.ofDefaults] using hcolors
  rw [hc.colors_eq]
  exact (ColorTable.inStep_ofDefaults _ _).nodup_addAll hdefaults _

/-- Two paths have one word exactly if they are of one kind and look alike. -/
theorem word_eq_iff (hc : Compiled default rules table)
    (hcolors : default.foreground ≠ default.background)
    (hknown : ∀ scopes, (styleByRules default rules scopes).fontStyle.Known)
    (language : LanguageId) (s t : String) :
    table.word language s = table.word language t ↔
      TokenKind.ofScopes s = TokenKind.ofScopes t ∧ table.style s = table.style t := by
  constructor
  · intro hword
    rw [← table.kind_word language s, ← table.styleOf_word_eq_style language s, hword,
      table.kind_word, table.styleOf_word_eq_style]
    exact ⟨rfl, rfl⟩
  · rintro ⟨hkind, hstyle⟩
    have hmeaning : styleByRules default rules s = styleByRules default rules t := by
      rw [← styleOf_word hc (hknown s) ⟨0⟩, ← styleOf_word hc (hknown t) ⟨0⟩]
      exact hstyle
    have hnumbered : table.numberedStyle s = table.numberedStyle t :=
      (hc.decodes_numberedStyle s).unique (hc.nodup_colors hcolors)
        (hmeaning ▸ hc.decodes_numberedStyle t)
    rw [RuleTable.word, RuleTable.word, RuleTable.baseWord, RuleTable.baseWord, hkind, hnumbered]

end Compiled

/-! ### The main result -/

/-- **Words are canonical.** Let the default colors of a rule table differ, and all font styles have
known flags only. Whatever was asked before, two scope paths get the same word exactly if they are
of the same kind and get the same style. So a line has one run for each maximal group of adjacent
tokens of one kind and one style: the run that the first token of the group opens. -/
theorem words_canonical (default : Style) (rules : List Rule)
    (hcolors : default.foreground ≠ default.background) (hdefault : default.fontStyle.Known)
    (hrules : ∀ rule ∈ rules, ∀ font, rule.change.fontStyle = some font → font.Known)
    (language : Language) :
    let table := RuleTable.ofRules default rules
    let word (earlier : List RuleTable.Query) (scopes : String) : Metadata :=
      ((table.remembered language.id scopes).run (table.memoAfter earlier)).1
    let style (earlier : List RuleTable.Query) (scopes : String) : Style :=
      ((table.rememberedStyle scopes).run (table.memoAfter earlier)).1
    (∀ earlier earlier' s t, word earlier s = word earlier' t ↔
        TokenKind.ofScopes s = TokenKind.ofScopes t ∧ style earlier s = style earlier' t) ∧
      ∀ (delta : UInt64) (tokens : List RawToken),
        let look : Token → Metadata := fun token => table.word language.id token.scopes
        let groups := (classicTokens language 0 tokens).splitBy table.LookAlike
        let runs := encodedRuns (table.word language.id) delta tokens
        runs = (groups.filterMap List.head?).map (Token.run look delta) ∧
          runs.length = groups.length := by
  intro table word style
  have hc : Compiled default rules table := compiled_ofRules default rules
  have hword := hc.word_eq_iff hcolors (known_styleByRules hdefault hrules) language.id
  refine ⟨fun earlier earlier' s t => ?_, fun delta tokens => ?_⟩
  · have hmemo := table.coherent_memoAfter earlier
    have hmemo' := table.coherent_memoAfter earlier'
    simp only [word, style, (hmemo.remembered _ s).1, (hmemo'.remembered _ t).1,
      (hmemo.rememberedStyle s).1, (hmemo'.rememberedStyle t).1]
    exact hword s t
  · intro look groups runs
    have hlook : SameLook look = table.LookAlike := by
      funext token next
      exact decide_eq_decide.mpr (hword token.scopes next.scopes)
    have hruns : runs = (openers look (classicTokens language 0 tokens)).map
        (Token.run look delta) := encodedRuns_eq_map_run language _ delta tokens
    rw [hruns, List.length_map, length_openers, openers_eq_heads, hlook]
    exact ⟨rfl, rfl⟩

/-- One color is a foreground here and a background there, and the default background is a
foreground. A path of another kind has a word of its own although it looks like its neighbor. -/
theorem words_canonical_shared :
    let default : Style := ⟨.white, .black, .none⟩
    let rules : List Rule :=
      [⟨"comment", ⟨some .black, some (.rgb 1 2 3), none⟩⟩,
        ⟨"text label, mark", ⟨some (.rgb 1 2 3), none, some .bold⟩⟩]
    let table := RuleTable.ofRules default rules
    let word (earlier : List RuleTable.Query) (scopes : String) : Metadata :=
      ((table.remembered ⟨7⟩ scopes).run (table.memoAfter earlier)).1
    let tokens : List RawToken :=
      [⟨0, "comment.line"⟩, ⟨4, "source comment"⟩, ⟨6, "mark"⟩, ⟨6, "label"⟩, ⟨9, "label string"⟩]
    (default.foreground ≠ default.background ∧ default.fontStyle.Known ∧
        ∀ rule ∈ rules, ∀ font, rule.change.fontStyle = some font → font.Known) ∧
      word [] "comment.line" = word [.word ⟨3⟩ "mark"] "source comment" ∧
      word [.style "label"] "label" ≠ word [] "label string" ∧
      (encodedRuns (table.word ⟨7⟩) 0 tokens).length = 3 := by
  intro default rules table word tokens
  have hcolors : default.foreground ≠ default.background := by decide
  have hdefault : default.fontStyle.Known := by decide
  have hrules : ∀ rule ∈ rules, ∀ font, rule.change.fontStyle = some font → font.Known := by
    simp [rules, FontStyle.Known, FontStyle.bold]
  have hmeaning : ∀ scopes, table.style scopes = styleByRules default rules scopes :=
    fun scopes => styleOf_word (compiled_ofRules default rules)
      (known_styleByRules hdefault hrules scopes) ⟨0⟩
  have hstyle : ∀ earlier scopes,
      ((table.rememberedStyle scopes).run (table.memoAfter earlier)).1 =
        styleByRules default rules scopes :=
    fun earlier scopes =>
      ((table.coherent_memoAfter earlier).rememberedStyle scopes).1.trans (hmeaning scopes)
  obtain ⟨hword, hruns⟩ :=
    words_canonical default rules hcolors hdefault hrules ⟨"toy", ⟨7⟩⟩
  refine ⟨⟨hcolors, hdefault, hrules⟩, (hword ..).mpr ⟨rfl, ?_⟩, ?_, ?_⟩
  · have hsame : styleByRules default rules "comment.line" =
        styleByRules default rules "source comment" := rfl
    exact (hstyle ..).trans (hsame.trans (hstyle ..).symm)
  · exact fun h => absurd ((hword ..).mp h).1 (by decide)
  · have hlook : table.LookAlike = fun token next =>
        decide (TokenKind.ofScopes token.scopes = TokenKind.ofScopes next.scopes ∧
          styleByRules default rules token.scopes = styleByRules default rules next.scopes) := by
      funext token next
      rw [RuleTable.LookAlike, hmeaning, hmeaning]
    refine (hruns 0 tokens).2.trans ?_
    rw [hlook]
    rfl

end Highlight
