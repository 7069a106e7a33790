import Highlight.Proofs.Token.Metadata
import Highlight.Rule.Memo
import Std.Data.HashMap.Lemmas

/-!
# What a matcher remembers never shows

A memo is coherent if it holds nothing but the words that the table gives in the language 0. Every
query keeps it so, whatever language it asks for, and a query against a coherent memo answers as if
there were none (`Coherent.run_ask`). So the answers to any number of queries are those that each of
them has on its own, stamped with the language that it asks for.
-/

namespace Highlight.RuleTable

/-- What a matcher may be asked. -/
inductive Query where
  /-- The word of a scope path in a language. -/
  | word (language : LanguageId) (scopes : String)
  /-- The style of a scope path. -/
  | style (scopes : String)

/-- The memo behind a query. -/
def memoBehind (table : RuleTable) (memo : WordMemo) : Query → WordMemo
  | .word language scopes => ((table.remembered language scopes).run memo).2
  | .style scopes => ((table.rememberedStyle scopes).run memo).2

/-- The memo after queries, made in order from an empty one. -/
def memoAfter (table : RuleTable) (queries : List Query) : WordMemo :=
  queries.foldl table.memoBehind {}

/-- A memo that holds nothing but words of the table, in the language 0. -/
def Coherent (table : RuleTable) (memo : WordMemo) : Prop :=
  ∀ scopes m, memo[scopes]? = some m → m = table.baseWord scopes

variable {table : RuleTable} {memo : WordMemo}

theorem Coherent.insert (hmemo : table.Coherent memo) (scopes : String) :
    table.Coherent (memo.insert scopes (table.baseWord scopes)) := by
  intro s m hm
  rw [Std.HashMap.getElem?_insert] at hm
  -- the new word is one of the table, and the others were there before
  by_cases heq : scopes = s
  · subst heq
    simpa using hm.symm
  · rw [if_neg (by simpa using heq)] at hm
    exact hmemo s m hm

theorem run_remembered (table : RuleTable) (language : LanguageId) (scopes : String)
    (memo : WordMemo) :
    (table.remembered language scopes).run memo =
      match memo[scopes]? with
      | some known => (known.withLanguage language, memo)
      | none =>
        ((table.baseWord scopes).withLanguage language,
          memo.insert scopes (table.baseWord scopes)) := by
  simp only [RuleTable.remembered, StateT.run_bind, StateT.run_get, pure_bind]
  cases memo[scopes]? with
  | some known => rfl
  | none => rfl

/-- Against a coherent memo, the word is that of the table, and the memo stays coherent. -/
theorem Coherent.remembered (hmemo : table.Coherent memo) (language : LanguageId)
    (scopes : String) :
    ((table.remembered language scopes).run memo).1 = table.word language scopes ∧
      table.Coherent ((table.remembered language scopes).run memo).2 := by
  rw [run_remembered]
  cases hknown : memo[scopes]? with
  | some known => exact ⟨by rw [hmemo scopes known hknown]; rfl, hmemo⟩
  | none => exact ⟨rfl, hmemo.insert scopes⟩

theorem Coherent.rememberedStyle (hmemo : table.Coherent memo) (scopes : String) :
    ((table.rememberedStyle scopes).run memo).1 = table.style scopes ∧
      table.Coherent ((table.rememberedStyle scopes).run memo).2 := by
  obtain ⟨hword, hafter⟩ := hmemo.remembered ⟨0⟩ scopes
  exact ⟨congrArg table.styleOf hword, hafter⟩

theorem Coherent.memoBehind (hmemo : table.Coherent memo) (query : Query) :
    table.Coherent (table.memoBehind memo query) := by
  cases query with
  | word language scopes => exact (hmemo.remembered language scopes).2
  | style scopes => exact (hmemo.rememberedStyle scopes).2

/-- **Memos are coherent**, whatever was asked. -/
theorem coherent_memoAfter (table : RuleTable) (queries : List Query) :
    table.Coherent (table.memoAfter queries) := by
  suffices h : ∀ memo, table.Coherent memo →
      table.Coherent (queries.foldl table.memoBehind memo) from
    h {} fun scopes m hm => by simp at hm
  induction queries with
  | nil => exact fun memo hmemo => hmemo
  | cons query queries ih => exact fun memo hmemo => ih _ (hmemo.memoBehind query)

/-! ### Answers to a sequence of queries -/

/-- What a matcher answers. -/
inductive Answer where
  | word (m : Metadata)
  | style (style : Style)

/-- Answers a query by way of the memo. -/
def ask (table : RuleTable) : Query → StateM WordMemo Answer
  | .word language scopes => do return .word (← table.remembered language scopes)
  | .style scopes => do return .style (← table.rememberedStyle scopes)

/-- The answer to a query as it is worked out from the table alone. -/
def answer (table : RuleTable) : Query → Answer
  | .word language scopes => .word (table.word language scopes)
  | .style scopes => .style (table.style scopes)

theorem Coherent.run_ask (hmemo : table.Coherent memo) (query : Query) :
    ((table.ask query).run memo).1 = table.answer query ∧
      table.Coherent ((table.ask query).run memo).2 := by
  cases query with
  | word language scopes =>
      obtain ⟨hword, hafter⟩ := hmemo.remembered language scopes
      exact ⟨congrArg Answer.word hword, hafter⟩
  | style scopes =>
      obtain ⟨hstyle, hafter⟩ := hmemo.rememberedStyle scopes
      exact ⟨congrArg Answer.style hstyle, hafter⟩

/-- From a coherent memo on, every query of a sequence is answered as on its own. -/
theorem Coherent.run_mapM_ask (hmemo : table.Coherent memo) (queries : List Query) :
    ((queries.mapM table.ask).run memo).1 = queries.map table.answer := by
  induction queries generalizing memo with
  | nil => rfl
  | cons query queries ih =>
      obtain ⟨hanswer, hafter⟩ := hmemo.run_ask query
      rw [List.mapM_cons, List.map_cons, ← hanswer, ← ih hafter]
      rfl

/-- **What a matcher remembers never shows.** Whatever a new matcher is asked, in whatever order,
every answer is the one worked out from the table alone. The answer for a scope path in a language
is the word that the table gives this very text, with the language in its lowest byte and with all
other bits as they are. -/
theorem answers_stamped (table : RuleTable) (queries : List Query) :
    ((queries.mapM table.ask).run {}).1 = queries.map table.answer ∧
      ∀ language scopes, ∃ m, table.answer (.word language scopes) = .word m ∧
        m.language = language ∧
        ∀ bit, m.bits.toNat.testBit bit =
          if bit < 8 then language.value.toNat.testBit bit
          else (table.baseWord scopes).bits.toNat.testBit bit := by
  have hempty : table.Coherent {} := table.coherent_memoAfter []
  refine ⟨hempty.run_mapM_ask queries, fun language scopes => ⟨_, rfl, ?_, ?_⟩⟩
  · exact Metadata.language_withLanguage _ language
  · exact Metadata.testBit_withLanguage _ language

end Highlight.RuleTable
