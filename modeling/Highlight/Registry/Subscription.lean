import Highlight.Registry.Basic

/-!
# Following the registry

Whoever wants to know of changes subscribes a listener. Every registration and every removal, also
one that removes nothing, is announced to the listeners subscribed at that moment, oldest first,
after the registry has changed. A listener may itself use the registry; what it changes is announced
in the same way, before the next listener is called.

Listeners are values of any type `L`. What calling one does is given by a function on the registry
and some surrounding state `W`.
-/

namespace Highlight

/-- A change of the set of named colors. -/
inductive RegistryChange where
  | registered (id : String)
  | deregistered (id : String)
  deriving DecidableEq, Repr

/-- A registry with its listeners. -/
structure WatchedRegistry (L : Type) where
  colors : ColorRegistry := {}
  /-- The number of the next subscription. -/
  nextSubscription : UInt64 := 0
  /-- The listeners, oldest first, with their subscription numbers. -/
  listeners : List (UInt64 × L) := []

namespace WatchedRegistry

variable {L W : Type}

/-- What a listener does when it is called: given its subscription number, itself and the change, it
may change the registry and the surrounding state. -/
abbrev Reaction (L W : Type) :=
  UInt64 → L → RegistryChange → StateM (WatchedRegistry L × W) Unit

/-- Calls every listener that is subscribed now. -/
def announce (react : Reaction L W) (change : RegistryChange) :
    StateM (WatchedRegistry L × W) Unit := do
  (← get).1.listeners.forM fun (number, listener) => react number listener change

/-- Changes the colors and nothing else. -/
def changeColors (change : ColorRegistry → ColorRegistry) :
    StateM (WatchedRegistry L × W) Unit :=
  modify fun (registry, surroundings) =>
    ({ registry with colors := change registry.colors }, surroundings)

/-- Registers a contribution and announces it. The identifier is given back. -/
def register (react : Reaction L W) (contribution : Contribution) :
    StateM (WatchedRegistry L × W) String := do
  changeColors (·.insert contribution)
  announce react (.registered contribution.id)
  return contribution.id

/-- Removes an identifier and announces that, whether or not it was registered. -/
def deregister (react : Reaction L W) (id : String) :
    StateM (WatchedRegistry L × W) Unit := do
  changeColors (·.erase id)
  announce react (.deregistered id)

/-- Adds a listener behind all others and gives its subscription number. Numbers are counted up, and
begin again at zero behind the greatest one. -/
def subscribe (registry : WatchedRegistry L) (listener : L) : UInt64 × WatchedRegistry L :=
  (registry.nextSubscription,
    { registry with
      nextSubscription := registry.nextSubscription + 1
      listeners := registry.listeners ++ [(registry.nextSubscription, listener)] })

/-- Removes the listener of a subscription; says whether there was one. -/
def unsubscribe (registry : WatchedRegistry L) (number : UInt64) : Bool × WatchedRegistry L :=
  (registry.listeners.any (·.1 == number),
    { registry with listeners := registry.listeners.filter (·.1 != number) })

end WatchedRegistry

end Highlight
