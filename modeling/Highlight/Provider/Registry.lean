import Std.Data.HashMap
import Std.Data.TreeMap
import Highlight.Text.Quoted

/-!
# The registry of providers

Per language there is at most one provider, registered either at once or as the promise of one. A
promise is kept at some time, with a provider or with nothing, and only the first answer counts.
Registrations of promises are numbered, in 64 bits. Whoever looks at a registration whose promise
has been answered settles it: the provider is installed, or the entry removed, provided that the
entry still has the number of that registration. So a late answer never touches what was registered
after it, for as long as the numbers do not come round again.
-/

namespace Highlight

/-- A provider that is still to come. Who registers it brings it along, and whoever waits for it
waits for the same answer. -/
structure Promise where
  id : Nat
  deriving DecidableEq, Hashable, Repr

/-- What is registered for a language. -/
inductive ProviderEntry (P : Type) where
  /-- A provider. -/
  | ready (provider : P)
  /-- A provider that is still to come, with the number of this registration of it. -/
  | deferred (registration : UInt64) (promise : Promise)

/-- What a look at a language finds. -/
inductive Lookup (P : Type) where
  | ready (provider : P)
  /-- A provider is still to come. -/
  | pending
  /-- There is none. -/
  | missing

/-- The providers of languages. -/
structure Providers (P : Type) where
  entries : Std.TreeMap String (ProviderEntry P) := {}
  /-- The number of the next deferred registration. -/
  nextRegistration : UInt64 := 0
  /-- The answers that promises have got so far. -/
  answers : Std.HashMap Promise (Option P) := {}

namespace Providers

variable {P : Type}

/-- Registers a provider in place of whatever was there. -/
def register (providers : Providers P) (language : String) (provider : P) : Providers P :=
  { providers with entries := providers.entries.insert language (.ready provider) }

/-- Registers a provider that is still to come, in place of whatever was there. The numbers start
over once they have all been given out. -/
def defer (providers : Providers P) (language : String) (promise : Promise) : Providers P :=
  { providers with
    entries := providers.entries.insert language (.deferred providers.nextRegistration promise)
    nextRegistration := providers.nextRegistration + 1 }

/-- Answers a promise, unless it has been answered before. -/
def answer (providers : Providers P) (promise : Promise) (provider : Option P) : Providers P :=
  { providers with answers := providers.answers.insertIfNew promise provider }

/-- Removes whatever is registered for a language; says whether there was anything. -/
def unregister (providers : Providers P) (language : String) : Bool × Providers P :=
  (providers.entries.contains language,
    { providers with entries := providers.entries.erase language })

/-- Whether anything is registered for a language. -/
def contains (providers : Providers P) (language : String) : Bool :=
  providers.entries.contains language

/-- Whether the entry of a language has the number of a deferred registration. -/
def isCurrent (providers : Providers P) (language : String) (registration : UInt64) : Bool :=
  match providers.entries[language]? with
  | some (.deferred current _) => current == registration
  | _ => false

/-- Enters the answer of a deferred registration, if its entry is still there. -/
def settle (providers : Providers P) (language : String) (registration : UInt64)
    (answer : Option P) : Providers P :=
  if providers.isCurrent language registration then
    match answer with
    | some provider => providers.register language provider
    | none => (providers.unregister language).2
  else providers

/-- Looks a language up without waiting. A registration whose promise is answered is settled. -/
def lookup (providers : Providers P) (language : String) : Lookup P × Providers P :=
  match providers.entries[language]? with
  | none => (.missing, providers)
  | some (.ready provider) => (.ready provider, providers)
  | some (.deferred registration promise) =>
    match providers.answers[promise]? with
    | none => (.pending, providers)
    | some answer =>
      let found :=
        match answer with
        | some provider => Lookup.ready provider
        | none => .missing
      (found, providers.settle language registration answer)

/-- How an entry is described. -/
def describeEntry (entry : String × ProviderEntry P) : String :=
  let status :=
    match entry.2 with
    | .ready _ => "ready"
    | .deferred _ _ => "pending"
  "(" ++ Text.quoted entry.1 ++ ", " ++ Text.quoted status ++ ")"

/-- How the registry is described: the languages in ascending order. -/
def describe (providers : Providers P) : String :=
  "TokenizationRegistry \x7b providers: [" ++
    ", ".intercalate (providers.entries.toList.map describeEntry) ++ "] \x7d"

end Providers

end Highlight
