import Highlight.Rule.Table

/-!
# Remembering matched scopes

The same scope paths occur on line after line, so a matcher remembers the word of each path it has
seen. Words are remembered for the language 0 and stamped with the language that is asked for, so
that languages share what is remembered.
-/

namespace Highlight

/-- The words of the scope paths seen so far. -/
abbrev WordMemo := Std.HashMap String Metadata

namespace RuleTable

/-- The word of a scope path in a language, taken from the memo if it is there and added to it
otherwise. -/
def remembered (table : RuleTable) (language : LanguageId) (scopes : String) :
    StateM WordMemo Metadata := do
  match (← get)[scopes]? with
  | some known => return known.withLanguage language
  | none =>
    let fresh := table.baseWord scopes
    modify (·.insert scopes fresh)
    return fresh.withLanguage language

/-- The style of a scope path, by way of the memo. -/
def rememberedStyle (table : RuleTable) (scopes : String) : StateM WordMemo Style := do
  return table.styleOf (← table.remembered ⟨0⟩ scopes)

end RuleTable

end Highlight
