import Highlight.Fault
import Highlight.Progress
import Highlight.Provider.Registry

/-!
# Waiting for a provider

A waiter looks its language up when it is first asked. If a provider is still to come, the waiter is
bound to that registration and waits for its promise, whatever is registered in the meantime.
-/

namespace Highlight

/-- Someone who waits for the provider of a language. -/
inductive Waiter where
  /-- The language has not been looked up yet. -/
  | fresh (language : String)
  /-- The promise of a deferred registration is awaited. -/
  | bound (language : String) (registration : UInt64) (promise : Promise)
  deriving DecidableEq, Repr

namespace Waiter

variable {P : Type}

/-- What an answer means for those who wait. -/
def outcome (language : String) : Option P → Except Fault P
  | some provider => .ok provider
  | none => .error (.noTokenizer language)

/-- Asks for the answer of a promise, and settles its registration. -/
def pollBound (language : String) (registration : UInt64) (promise : Promise)
    (providers : Providers P) : Progress (Except Fault P) Waiter × Providers P :=
  match providers.answers[promise]? with
  | none => (.pending (bound language registration promise), providers)
  | some answer =>
    (.done (outcome language answer), providers.settle language registration answer)

/-- Asks for the provider. -/
def poll (waiter : Waiter) (providers : Providers P) :
    Progress (Except Fault P) Waiter × Providers P :=
  match waiter with
  | bound language registration promise => pollBound language registration promise providers
  | fresh language =>
    match providers.entries[language]? with
    | none => (.done (.error (.noTokenizer language)), providers)
    | some (.ready provider) => (.done (.ok provider), providers)
    | some (.deferred registration promise) => pollBound language registration promise providers

end Waiter

end Highlight
