import Highlight.Proofs.Rule.Interning
import Highlight.Proofs.Rule.Remembering
import Highlight.Proofs.Rule.Selection
import Highlight.Proofs.Token.Metadata
import Mathlib.Data.List.Induction

/-!
# What theme rules mean

A rule table numbers colors, merges rules and packs words. Its meaning can be told on colors and
rules alone (`styleByRules`): from the default style on, each scope of a path applies what the rules
of its longest selector set, field by field by the last rule that sets the field. Only a color that
did not get a number is shown as a default color instead.

Three facts carry the proof. A compiled table (`Compiled`) holds for every selector the settings of
its last rules, with the numbers that the *final* table of colors gives; colors are settled once
they are entered, so the numbers given out on the way agree with it. A numbered style stands for a
style (`Decodes`), and overrides keep it so. And a packed word loses nothing, since numbers in use
fit nine bits.
-/

namespace Highlight

/-! ### The meaning of rules -/

/-- The value that the last rule with a selector gives to a field, among the rules that set it. -/
def lastSetting {α : Type} (field : StyleOverride → Option α) (rules : List Rule)
    (selector : String) : Option α :=
  (rules.reverse.filter fun rule => selector ∈ rule.selectors).findSome? fun rule =>
    field rule.change

/-- A color as it is shown: itself if it was admitted, and the fallback otherwise. -/
def shown (default : Style) (rules : List Rule) (fallback color : Color) : Color :=
  if color ∈ admitted default rules then color else fallback

/-- What rules change at a selector. -/
def overrideAt (default : Style) (rules : List Rule) (selector : String) : StyleOverride where
  foreground := (lastSetting (·.foreground) rules selector).map
    (shown default rules default.foreground)
  background := (lastSetting (·.background) rules selector).map
    (shown default rules default.background)
  fontStyle := lastSetting (·.fontStyle) rules selector

/-- Applies to a style what rules change at the longest selector of a scope. -/
def applyRules (default : Style) (rules : List Rule) (style : Style) (scope : String) : Style :=
  match longestSelector? rules scope with
  | some selector => (overrideAt default rules selector).apply style
  | none => style

/-- The style that rules give a scope path, outermost scope first. -/
def styleByRules (default : Style) (rules : List Rule) (scopes : String) : Style :=
  (Text.words scopes).foldl (applyRules default rules) default

theorem lastSetting_concat {α : Type} (field : StyleOverride → Option α) (rules : List Rule)
    (rule : Rule) (selector : String) :
    lastSetting field (rules ++ [rule]) selector =
      if selector ∈ rule.selectors then
        (field rule.change).or (lastSetting field rules selector)
      else lastSetting field rules selector := by
  rw [lastSetting, List.reverse_append, List.reverse_singleton, List.singleton_append]
  by_cases hmem : selector ∈ rule.selectors
  · rw [if_pos hmem, List.filter_cons_of_pos (by simpa using hmem), List.findSome?_cons]
    cases field rule.change <;> rfl
  · rw [if_neg hmem, List.filter_cons_of_neg (by simpa using hmem)]
    rfl

theorem lastSetting_eq_some {α : Type} {field : StyleOverride → Option α} {rules : List Rule}
    {selector : String} {a : α} (h : lastSetting field rules selector = some a) :
    ∃ rule ∈ rules, selector ∈ rule.selectors ∧ field rule.change = some a := by
  obtain ⟨rule, hmem, hfield⟩ := List.exists_of_findSome?_eq_some h
  obtain ⟨hrule, hselector⟩ := List.mem_filter.mp hmem
  exact ⟨rule, List.mem_reverse.mp hrule, of_decide_eq_true hselector, hfield⟩

theorem mem_selectorsOfRules {rules : List Rule} {selector : String} :
    selector ∈ selectorsOfRules rules ↔ ∃ rule ∈ rules, selector ∈ rule.selectors :=
  List.mem_flatMap

/-- Where no rule selects, nothing is set. -/
theorem lastSetting_of_not_mem {α : Type} {field : StyleOverride → Option α}
    {rules : List Rule} {selector : String} (hnot : selector ∉ selectorsOfRules rules) :
    lastSetting field rules selector = none := by
  cases h : lastSetting field rules selector with
  | none => rfl
  | some a =>
      obtain ⟨rule, hrule, hselector, -⟩ := lastSetting_eq_some h
      exact absurd (mem_selectorsOfRules.mpr ⟨rule, hrule, hselector⟩) hnot

/-! ### Compiling -/

/-- Changes with the numbers that a table of colors gives. -/
def numbered (colors : ColorTable) (change : StyleOverride) : NumberedOverride where
  foreground := change.foreground.map (colors.numberOr · Metadata.defaultForeground)
  background := change.background.map (colors.numberOr · Metadata.defaultBackground)
  fontStyle := change.fontStyle

/-- What the last rules set at a selector. -/
def settingsAt (rules : List Rule) (selector : String) : StyleOverride where
  foreground := lastSetting (·.foreground) rules selector
  background := lastSetting (·.background) rules selector
  fontStyle := lastSetting (·.fontStyle) rules selector

theorem NumberedOverride.merge_merge (earlier later : NumberedOverride) :
    (earlier.merge later).merge later = earlier.merge later := by
  obtain ⟨foreground, background, fontStyle⟩ := later
  cases foreground <;> cases background <;> cases fontStyle <;> rfl

namespace RuleTable

/-- A change is merged into those of each of its selectors once, however often they are listed. -/
theorem getElem?_foldl_addChange (change : NumberedOverride) (selectors : List String)
    (changes : Std.HashMap String NumberedOverride) (selector : String) :
    (selectors.foldl (addChange change) changes)[selector]? =
      if selector ∈ selectors then some ((changes.getD selector {}).merge change)
      else changes[selector]? := by
  induction selectors generalizing changes with
  | nil => rfl
  | cons first selectors ih =>
      rw [List.foldl_cons, ih]
      by_cases hfirst : first = selector
      · subst hfirst
        simp [addChange, NumberedOverride.merge_merge]
      · simp [addChange, Std.HashMap.getD_insert, Std.HashMap.getElem?_insert, hfirst,
          Ne.symm hfirst]

/-- A rule enters its colors and merges its change with the numbers they have afterwards. -/
theorem addRule_eq (table : RuleTable) (rule : Rule) :
    table.addRule rule =
      { table with
        changes := rule.selectors.foldl
          (addChange (numbered (table.colors.addAll rule.colors) rule.change)) table.changes
        colors := table.colors.addAll rule.colors } := by
  have hcolors (foreground background : Option Color) :
      (table.colors.addAll foreground.toList).addAll background.toList =
        table.colors.addAll (foreground.toList ++ background.toList) :=
    (List.foldl_append ..).symm
  -- the foreground is numbered before the background is entered, which makes no difference
  have hforeground (foreground background : Option Color) :
      foreground.map ((table.colors.addAll foreground.toList).numberOr · 1) =
        foreground.map
          ((table.colors.addAll (foreground.toList ++ background.toList)).numberOr · 1) := by
    rw [← hcolors]
    refine (ColorTable.map_numberOr_addAll (fun color hcolor => ?_) background.toList 1).symm
    exact ColorTable.settledFor_addAll_of_mem (Option.mem_toList.mpr hcolor)
  simp only [addRule, ColorTable.internOption_eq, hcolors, numbered, Rule.colors,
    Metadata.defaultForeground, Metadata.defaultBackground]
  rw [hforeground _ rule.change.background]

end RuleTable

/-- A table that holds the rules: it has entered their colors in order, and has for each of their
selectors what the last rules set, by the numbers of its colors. -/
structure Compiled (default : Style) (rules : List Rule) (table : RuleTable) : Prop where
  default_eq : table.default = default
  colors_eq : table.colors =
    (ColorTable.ofDefaults default.foreground default.background).addAll
      (rules.flatMap Rule.colors)
  changes_eq : ∀ selector, table.changes[selector]? =
    if selector ∈ selectorsOfRules rules then
      some (numbered table.colors (settingsAt rules selector))
    else none

namespace Compiled

variable {default : Style} {rules : List Rule} {table : RuleTable}

theorem settledFor_of_lastSetting (hc : Compiled default rules table)
    {field : StyleOverride → Option Color} {selector : String}
    (hfield : ∀ rule : Rule, ∀ color ∈ field rule.change, color ∈ rule.colors) :
    ∀ color ∈ lastSetting field rules selector, table.colors.SettledFor color := by
  intro color hset
  obtain ⟨rule, hrule, -, hchange⟩ := lastSetting_eq_some hset
  rw [hc.colors_eq]
  exact ColorTable.settledFor_addAll_of_mem
    (List.mem_flatMap.mpr ⟨rule, hrule, hfield rule color hchange⟩)

/-- The numbers of what is set do not depend on the rules that follow. -/
theorem numbered_addAll (hc : Compiled default rules table) (selector : String)
    (colors : List Color) :
    numbered (table.colors.addAll colors) (settingsAt rules selector) =
      numbered table.colors (settingsAt rules selector) := by
  have hforeground : ∀ color ∈ (settingsAt rules selector).foreground,
      table.colors.SettledFor color :=
    hc.settledFor_of_lastSetting fun rule color hcolor =>
      List.mem_append_left _ (Option.mem_toList.mpr hcolor)
  have hbackground : ∀ color ∈ (settingsAt rules selector).background,
      table.colors.SettledFor color :=
    hc.settledFor_of_lastSetting fun rule color hcolor =>
      List.mem_append_right _ (Option.mem_toList.mpr hcolor)
  simp only [numbered, ColorTable.map_numberOr_addAll hforeground,
    ColorTable.map_numberOr_addAll hbackground]

theorem getD_changes (hc : Compiled default rules table) (selector : String) :
    table.changes.getD selector {} = numbered table.colors (settingsAt rules selector) := by
  rw [Std.HashMap.getD_eq_getD_getElem?, hc.changes_eq]
  by_cases hmem : selector ∈ selectorsOfRules rules
  · rw [if_pos hmem, Option.getD_some]
  · rw [if_neg hmem, Option.getD_none]
    simp [settingsAt, numbered, lastSetting_of_not_mem hmem]

theorem merge_numbered (colors : ColorTable) (earlier later : StyleOverride) :
    (numbered colors earlier).merge (numbered colors later) =
      numbered colors ⟨later.foreground.or earlier.foreground,
        later.background.or earlier.background, later.fontStyle.or earlier.fontStyle⟩ := by
  obtain ⟨foreground, background, fontStyle⟩ := later
  cases foreground <;> cases background <;> cases fontStyle <;> rfl

theorem addRule (hc : Compiled default rules table) (rule : Rule) :
    Compiled default (rules ++ [rule]) (table.addRule rule) := by
  rw [RuleTable.addRule_eq]
  refine ⟨hc.default_eq, ?_, fun selector => ?_⟩
  · simp only [hc.colors_eq, ColorTable.addAll, List.flatMap_append, List.foldl_append,
      List.flatMap_singleton]
  · have hselectors : selector ∈ selectorsOfRules (rules ++ [rule]) ↔
        selector ∈ selectorsOfRules rules ∨ selector ∈ rule.selectors := by
      simp [selectorsOfRules]
    simp only [RuleTable.getElem?_foldl_addChange, hc.getD_changes, hselectors]
    -- what the earlier rules set was numbered by the old table, the new change by the new one
    rw [← hc.numbered_addAll selector rule.colors]
    by_cases hrule : selector ∈ rule.selectors
    · rw [if_pos hrule, if_pos (Or.inr hrule), merge_numbered]
      simp only [settingsAt, lastSetting_concat, if_pos hrule]
    · rw [if_neg hrule, hc.changes_eq]
      simp only [hrule, or_false]
      rw [← hc.numbered_addAll selector rule.colors]
      simp only [settingsAt, lastSetting_concat, if_neg hrule]

end Compiled

/-- **Compiling yields a compiled table.** -/
theorem compiled_ofRules (default : Style) (rules : List Rule) :
    Compiled default rules (RuleTable.ofRules default rules) := by
  induction rules using List.reverseRecOn with
  | nil => exact ⟨rfl, rfl, fun selector => by simp [RuleTable.ofRules, RuleTable.ofDefault,
      selectorsOfRules]⟩
  | append_singleton rules rule ih =>
      rw [RuleTable.ofRules, List.foldl_append]
      exact ih.addRule rule

/-! ### Numbered styles -/

/-- A numbered style stands for a style: its numbers are those of the style's colors. -/
structure Decodes (colors : ColorTable) (numbered : NumberedStyle) (style : Style) : Prop where
  foreground : colors.color? numbered.foreground = some style.foreground
  background : colors.color? numbered.background = some style.background
  fontStyle : numbered.fontStyle = style.fontStyle

namespace Compiled

variable {default : Style} {rules : List Rule} {table : RuleTable}

/-- The map of numbers and the list of colors are in step. -/
theorem inStep (hc : Compiled default rules table) : table.colors.InStep := by
  rw [hc.colors_eq]
  exact (ColorTable.inStep_ofDefaults default.foreground default.background).addAll _

theorem colors_eq_admitted (hc : Compiled default rules table) :
    table.colors.colors = admitted default rules := by
  have hempty : (ColorTable.ofDefaults default.foreground default.background).colors =
      admittedOf default [] := rfl
  rw [hc.colors_eq]
  exact (ColorTable.inStep_ofDefaults _ _).colors_addAll_of_admitted hempty _

theorem size_le (hc : Compiled default rules table) : table.colors.size ≤ 511 := by
  rw [ColorTable.size, hc.colors_eq_admitted, admitted, admittedOf]
  simp only [List.length_cons, List.length_take]
  omega

/-- The numbers in use fit nine bits. -/
theorem mod_of_color? (hc : Compiled default rules table) {number : Nat} {color : Color}
    (hcolor : table.colors.color? number = some color) : number % 512 = number := by
  have hnumber := ColorTable.color?_eq_some hcolor
  have hsize := hc.size_le
  exact Nat.mod_eq_of_lt (by omega)

theorem color?_default (hc : Compiled default rules table) :
    table.colors.color? Metadata.defaultForeground = some default.foreground ∧
      table.colors.color? Metadata.defaultBackground = some default.background := by
  constructor <;>
    simp [ColorTable.color?, hc.colors_eq_admitted, admitted, admittedOf,
      Metadata.defaultForeground, Metadata.defaultBackground]

/-- The number of a color stands for the color as it is shown. -/
theorem color?_numberOr (hc : Compiled default rules table) {fallback : Nat}
    {fallbackColor : Color} (hfallback : table.colors.color? fallback = some fallbackColor)
    (color : Color) :
    table.colors.color? (table.colors.numberOr color fallback) =
      some (shown default rules fallbackColor color) := by
  have hadmitted : color ∈ table.colors.ids ↔ color ∈ admitted default rules := by
    rw [hc.inStep.mem_ids, hc.colors_eq_admitted]
  by_cases hmem : color ∈ table.colors.ids
  · rw [hc.inStep.color?_numberOr hmem, shown, if_pos (hadmitted.mp hmem)]
  · rw [ColorTable.numberOr_of_not_mem hmem, hfallback, shown,
      if_neg fun h => hmem (hadmitted.mpr h)]

theorem decodes_initial (hc : Compiled default rules table) :
    Decodes table.colors table.initial default :=
  ⟨hc.color?_default.1, hc.color?_default.2, congrArg Style.fontStyle hc.default_eq⟩

/-- Overriding by numbers is overriding by colors. -/
theorem decodes_apply (hc : Compiled default rules table) {style : Style}
    {numberedStyle : NumberedStyle} (hd : Decodes table.colors numberedStyle style)
    (selector : String) :
    Decodes table.colors
      ((numbered table.colors (settingsAt rules selector)).apply numberedStyle)
      ((overrideAt default rules selector).apply style) where
  foreground := by
    simp only [numbered, settingsAt, overrideAt, NumberedOverride.apply, StyleOverride.apply]
    cases lastSetting (·.foreground) rules selector with
    | none => exact hd.foreground
    | some color => exact hc.color?_numberOr hc.color?_default.1 color
  background := by
    simp only [numbered, settingsAt, overrideAt, NumberedOverride.apply, StyleOverride.apply]
    cases lastSetting (·.background) rules selector with
    | none => exact hd.background
    | some color => exact hc.color?_numberOr hc.color?_default.2 color
  fontStyle := by
    simp only [numbered, settingsAt, overrideAt, NumberedOverride.apply, StyleOverride.apply,
      hd.fontStyle]

/-- The change of a scope is what the rules set at its longest selector. -/
theorem change?_eq (hc : Compiled default rules table) (scope : String) :
    table.change? scope = (longestSelector? rules scope).map fun selector =>
      numbered table.colors (settingsAt rules selector) := by
  have hsome (selector : String) :
      (table.changes[selector]?).isSome ↔ selector ∈ selectorsOfRules rules := by
    rw [hc.changes_eq]
    by_cases hmem : selector ∈ selectorsOfRules rules <;> simp [hmem]
  rw [RuleTable.change?, findSome?_selectorsFor hsome]
  cases hlongest : longestSelector? rules scope with
  | none => rfl
  | some selector =>
      -- the longest selector is one of the rules', so the table has changes for it
      have hmem : selector ∈ selectorsOfRules rules :=
        (List.mem_filter.mp (List.argmax_mem hlongest)).1
      rw [Option.bind_some, hc.changes_eq, if_pos hmem, Option.map_some]

theorem decodes_applyScope (hc : Compiled default rules table) {style : Style}
    {numberedStyle : NumberedStyle} (hd : Decodes table.colors numberedStyle style)
    (scope : String) :
    Decodes table.colors (table.applyScope numberedStyle scope)
      (applyRules default rules style scope) := by
  rw [RuleTable.applyScope, applyRules, hc.change?_eq]
  cases longestSelector? rules scope with
  | none => exact hd
  | some selector => exact hc.decodes_apply hd selector

/-- The numbered style of a path stands for the style that the rules give it. -/
theorem decodes_numberedStyle (hc : Compiled default rules table) (scopes : String) :
    Decodes table.colors (table.numberedStyle scopes) (styleByRules default rules scopes) := by
  rw [RuleTable.numberedStyle, styleByRules]
  suffices h : ∀ (path : List String) numberedStyle style,
      Decodes table.colors numberedStyle style →
        Decodes table.colors (path.foldl table.applyScope numberedStyle)
          (path.foldl (applyRules default rules) style) from
    h _ _ _ hc.decodes_initial
  intro path
  induction path with
  | nil => exact fun _ _ hd => hd
  | cons scope path ih => exact fun _ _ hd => ih _ _ (hc.decodes_applyScope hd scope)

end Compiled

/-! ### The main result -/

/-- Default style and rules whose font styles have known flags only give no other font styles. -/
theorem known_styleByRules {default : Style} {rules : List Rule}
    (hdefault : default.fontStyle.Known)
    (hrules : ∀ rule ∈ rules, ∀ font, rule.change.fontStyle = some font → font.Known)
    (scopes : String) : (styleByRules default rules scopes).fontStyle.Known := by
  have hoverride (style : Style) (hstyle : style.fontStyle.Known) (scope : String) :
      (applyRules default rules style scope).fontStyle.Known := by
    rw [applyRules]
    cases longestSelector? rules scope with
    | none => exact hstyle
    | some selector =>
        simp only [overrideAt, StyleOverride.apply]
        cases hset : lastSetting (·.fontStyle) rules selector with
        | none => exact hstyle
        | some font =>
            obtain ⟨rule, hrule, -, hfield⟩ := lastSetting_eq_some hset
            exact hrules rule hrule font hfield
  rw [styleByRules]
  exact List.foldlRecOn (motive := fun style => style.fontStyle.Known) _ _ hdefault
    fun style hstyle scope _ => hoverride style hstyle scope

/-- A packed word stands for the style that its numbered style stands for, without its unknown
flags. -/
theorem styleOf_word_eq_ofBits {default : Style} {rules : List Rule} {table : RuleTable}
    (hc : Compiled default rules table) (language : LanguageId) (scopes : String) :
    table.styleOf (table.word language scopes) =
      { styleByRules default rules scopes with
        fontStyle := .ofBits (styleByRules default rules scopes).fontStyle.bits } := by
  have hd := hc.decodes_numberedStyle scopes
  simp only [RuleTable.styleOf, RuleTable.word, RuleTable.baseWord,
    Metadata.foreground_withLanguage, Metadata.background_withLanguage,
    Metadata.fontStyle_withLanguage, Metadata.foreground_pack, Metadata.background_pack,
    hc.mod_of_color? hd.foreground, hc.mod_of_color? hd.background, hd.foreground, hd.background,
    hd.fontStyle, Metadata.fontStyle_pack_eq_ofBits, Option.getD_some]

/-- Without unknown flags nothing is lost. -/
theorem styleOf_word {default : Style} {rules : List Rule} {table : RuleTable}
    (hc : Compiled default rules table) {scopes : String}
    (hknown : (styleByRules default rules scopes).fontStyle.Known) (language : LanguageId) :
    table.styleOf (table.word language scopes) = styleByRules default rules scopes := by
  rw [styleOf_word_eq_ofBits hc, hknown.ofBits_bits]

/-- **Theme rules mean what they say on colors.** Whatever was asked before, the style of a scope
path is the one that the rules give it. -/
theorem rememberedStyle_eq_styleByRules (default : Style) (rules : List Rule)
    (hdefault : default.fontStyle.Known)
    (hrules : ∀ rule ∈ rules, ∀ font, rule.change.fontStyle = some font → font.Known)
    (earlier : List RuleTable.Query) (scopes : String) :
    let table := RuleTable.ofRules default rules
    ((table.rememberedStyle scopes).run (table.memoAfter earlier)).1 =
      styleByRules default rules scopes := by
  intro table
  rw [((table.coherent_memoAfter earlier).rememberedStyle scopes).1]
  exact styleOf_word (compiled_ofRules default rules)
    (known_styleByRules hdefault hrules scopes) ⟨0⟩

/-- A rule on a comma list and a longer selector, asked for twice: the inner scope keeps the color
that the outer one gave, and takes the font style of its longest selector. -/
theorem rememberedStyle_eq_styleByRules_nested :
    let default : Style := ⟨.white, .black, .none⟩
    let rules : List Rule :=
      [⟨"comment, source text", ⟨some (.rgb 1 2 3), none, some .bold⟩⟩,
        ⟨"comment.line", ⟨none, some .white, some .italic⟩⟩]
    let table := RuleTable.ofRules default rules
    let earlier : List RuleTable.Query := [.word ⟨7⟩ "text comment.line.x", .style "text"]
    (default.fontStyle.Known ∧
        ∀ rule ∈ rules, ∀ font, rule.change.fontStyle = some font → font.Known) ∧
      ((table.rememberedStyle "text comment.line.x").run (table.memoAfter earlier)).1 =
        ⟨.rgb 1 2 3, .white, .italic⟩ := by
  intro default rules table earlier
  have hdefault : default.fontStyle.Known := by decide
  have hrules : ∀ rule ∈ rules, ∀ font, rule.change.fontStyle = some font → font.Known := by
    simp [rules, FontStyle.Known, FontStyle.bold, FontStyle.italic]
  refine ⟨⟨hdefault, hrules⟩, ?_⟩
  rw [rememberedStyle_eq_styleByRules default rules hdefault hrules earlier]
  rfl

end Highlight
