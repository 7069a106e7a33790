import Std.Data.HashMap
import Highlight.Rule.Basic
import Highlight.Rule.ColorTable
import Highlight.Token.Theme

/-!
# Rule tables

The rules of a theme are compiled into a table from selectors to changes, with the colors replaced
by their numbers. Rules with the same selector are merged field by field, the later rule winning.
The style of a scope path starts from the default style; each scope, outermost first, applies the
change of its longest selector, so that inner scopes inherit what they do not change.
-/

namespace Highlight

/-- Changes with numbered colors. -/
structure NumberedOverride where
  foreground : Option Nat := none
  background : Option Nat := none
  fontStyle : Option FontStyle := none
  deriving DecidableEq, Repr

/-- The changes of both, the later one winning field by field. -/
def NumberedOverride.merge (earlier later : NumberedOverride) : NumberedOverride where
  foreground := later.foreground <|> earlier.foreground
  background := later.background <|> earlier.background
  fontStyle := later.fontStyle <|> earlier.fontStyle

/-- A style with numbered colors. -/
structure NumberedStyle where
  foreground : Nat
  background : Nat
  fontStyle : FontStyle
  deriving DecidableEq, Repr

/-- Applies numbered changes to a numbered style. -/
def NumberedOverride.apply (change : NumberedOverride) (style : NumberedStyle) :
    NumberedStyle where
  foreground := change.foreground.getD style.foreground
  background := change.background.getD style.background
  fontStyle := change.fontStyle.getD style.fontStyle

/-- The compiled rules of a theme. -/
structure RuleTable where
  /-- The style of text that no rule changes. -/
  default : Style
  /-- The changes of each selector. -/
  changes : Std.HashMap String NumberedOverride := {}
  /-- The numbered colors. -/
  colors : ColorTable

namespace RuleTable

/-- The table without rules. -/
def ofDefault (default : Style) : RuleTable :=
  { default, colors := ColorTable.ofDefaults default.foreground default.background }

/-- Merges a change into those of a selector. -/
def addChange (change : NumberedOverride) (changes : Std.HashMap String NumberedOverride)
    (selector : String) : Std.HashMap String NumberedOverride :=
  changes.insert selector ((changes.getD selector {}).merge change)

/-- Adds a rule behind all others. Its colors are numbered, foreground first, even if it selects
nothing. -/
def addRule (table : RuleTable) (rule : Rule) : RuleTable :=
  let (foreground, colors) :=
    table.colors.internOption rule.change.foreground Metadata.defaultForeground
  let (background, colors) :=
    colors.internOption rule.change.background Metadata.defaultBackground
  let change : NumberedOverride := ⟨foreground, background, rule.change.fontStyle⟩
  { table with changes := rule.selectors.foldl (addChange change) table.changes, colors }

/-- Compiles rules in order. -/
def ofRules (default : Style) (rules : List Rule) : RuleTable :=
  rules.foldl addRule (ofDefault default)

/-- The changes of the longest selector of a scope. -/
def change? (table : RuleTable) (scope : String) : Option NumberedOverride :=
  (selectorsFor scope).findSome? fun selector => table.changes[selector]?

/-- Applies the change of one scope. -/
def applyScope (table : RuleTable) (style : NumberedStyle) (scope : String) : NumberedStyle :=
  match table.change? scope with
  | some change => change.apply style
  | none => style

/-- The default style with numbered colors. -/
def initial (table : RuleTable) : NumberedStyle :=
  ⟨Metadata.defaultForeground, Metadata.defaultBackground, table.default.fontStyle⟩

/-- The numbered style of a scope path. -/
def numberedStyle (table : RuleTable) (scopes : String) : NumberedStyle :=
  (Text.words scopes).foldl table.applyScope table.initial

/-- The word of a scope path in the language 0. -/
def baseWord (table : RuleTable) (scopes : String) : Metadata :=
  let style := table.numberedStyle scopes
  Metadata.pack ⟨0⟩ (TokenKind.ofScopes scopes) style.fontStyle style.foreground style.background

/-- The word of a scope path in a language. -/
def word (table : RuleTable) (language : LanguageId) (scopes : String) : Metadata :=
  (table.baseWord scopes).withLanguage language

/-- The style that a word stands for. Colors it does not name are the default ones. -/
def styleOf (table : RuleTable) (m : Metadata) : Style where
  foreground := (table.colors.color? m.foreground).getD table.default.foreground
  background := (table.colors.color? m.background).getD table.default.background
  fontStyle := m.fontStyle

/-- The style of a scope path. -/
def style (table : RuleTable) (scopes : String) : Style := table.styleOf (table.word ⟨0⟩ scopes)

/-- The token theme of the rules. -/
def toTokenTheme (table : RuleTable) : TokenTheme := ⟨table.word, table.colors.color?⟩

end RuleTable

end Highlight
