import Highlight.Line.Token
import Highlight.Token.Theme

/-!
# Tokenizers

A tokenizer turns a line and the state at its start into tokens and the state at its end. States
belong to the tokenizer: they are instances of a type `S`, equal in Lean when they are the very same
instance. A grammar tells which instances behave alike; an end state that behaves like the state the
line started in is given back as that very instance, so that callers see at once that nothing
changed.

Tokenizing may act on surroundings `W`, for instance by cancelling work.
-/

namespace Highlight

/-- What a grammar reports for a line. -/
structure RawLine (S : Type) where
  tokens : List RawToken
  endState : S

/-- The grammar of a language. -/
structure Grammar (S : Type) where
  /-- The state at the start of a text. -/
  initial : S
  tokenize : String → S → RawLine S
  /-- Whether a state behaves like another one. -/
  alike : S → S → Bool

/-- A tokenizer of a language, in its two forms. -/
structure Tokenizer (W S : Type) where
  /-- The state at the start of a text. -/
  initial : S
  /-- The tokens of a line from a state on, with starts moved by a number, and the end state. -/
  classic : String → S → UInt64 → StateM W (List Token × S)
  /-- The words of the runs of a line from a state on, with starts moved by a number, and the end
  state. -/
  encoded : String → S → UInt64 → StateM W (List UInt32 × S)

/-- The end state as callers get it: the instance at the start if the produced one is that instance
or behaves like it. -/
def Grammar.settle {S : Type} [DecidableEq S] (grammar : Grammar S) (start produced : S) : S :=
  if produced = start ∨ grammar.alike produced start then start else produced

namespace Tokenizer

variable {W S : Type}

/-- The tokenizer of a grammar, with words from a token theme. -/
def ofGrammar [DecidableEq S] (language : Language) (grammar : Grammar S) (theme : TokenTheme) :
    Tokenizer W S where
  initial := grammar.initial
  classic line state delta := do
    let raw := grammar.tokenize line state
    return (classicTokens language delta raw.tokens, grammar.settle state raw.endState)
  encoded line state delta := do
    let raw := grammar.tokenize line state
    let runs := encodedRuns (theme.word language.id) delta raw.tokens
    return (Run.toWords runs, grammar.settle state raw.endState)

/-- The tokenizer of plain text: one token per line, and a state that never changes. -/
def plain (language : Language) (state : S) : Tokenizer W S where
  initial := state
  classic _ state delta := return ([⟨delta, "", language.name⟩], state)
  encoded _ state delta :=
    return (Run.toWords [⟨encodedStart delta, Metadata.plain language.id⟩], state)

/-- The tokenizer that first does something with every line. -/
def before (act : String → W → W) (tokenizer : Tokenizer W S) : Tokenizer W S where
  initial := tokenizer.initial
  classic line state delta := do
    modify (act line)
    tokenizer.classic line state delta
  encoded line state delta := do
    modify (act line)
    tokenizer.encoded line state delta

end Tokenizer

/-- The language of text that is not highlighted. -/
def Language.plainText : Language := ⟨"plaintext", ⟨0⟩⟩

end Highlight
