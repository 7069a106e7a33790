import Std.Data.HashMap
import Highlight.Text.Quoted
import Highlight.Value.Basic

/-!
# The registry of named colors

A contribution gives a color identifier a description and defaults per kind of theme. The registry
holds at most one contribution per identifier and remembers in which order identifiers were first
registered. Registering an identifier again replaces its contribution and keeps its place; after a
removal it goes to the end like a new one.

Contributions are found through a hash table; the order is kept beside it, and the two hold the same
identifiers.
-/

namespace Highlight

/-- A named color. -/
structure Contribution where
  id : String
  description : String
  defaults : ColorDefaults
  /-- Whether the color must let what is under it shine through. -/
  needsTransparency : Bool := false
  /-- Why the color should no longer be used. -/
  deprecation : Option String := none

/-- The named colors, with the order in which they were registered. -/
structure ColorRegistry where
  byId : Std.HashMap String Contribution := {}
  order : Array String := #[]

namespace ColorRegistry

/-- A registry without colors. -/
def empty : ColorRegistry := {}

/-- Adds a contribution, or replaces the one with the same identifier. -/
def insert (registry : ColorRegistry) (contribution : Contribution) : ColorRegistry where
  byId := registry.byId.insert contribution.id contribution
  order :=
    if registry.byId.contains contribution.id then registry.order
    else registry.order.push contribution.id

/-- Removes the contribution of an identifier, if there is one. -/
def erase (registry : ColorRegistry) (id : String) : ColorRegistry :=
  if registry.byId.contains id then
    { byId := registry.byId.erase id, order := registry.order.filter (· != id) }
  else registry

/-- Adds several contributions in turn. -/
def insertAll (registry : ColorRegistry) (contributions : List Contribution) : ColorRegistry :=
  contributions.foldl insert registry

/-- The contribution of an identifier. -/
def get? (registry : ColorRegistry) (id : String) : Option Contribution := registry.byId[id]?

/-- Whether the identifier is registered. -/
def contains (registry : ColorRegistry) (id : String) : Bool := registry.byId.contains id

/-- The registered identifiers in order. -/
def ids (registry : ColorRegistry) : List String := registry.order.toList

/-- All contributions in order. -/
def toList (registry : ColorRegistry) : List Contribution := registry.ids.filterMap registry.get?

/-- How many colors are registered. -/
def size (registry : ColorRegistry) : Nat := registry.order.size

/-- Whether no color is registered. -/
def isEmpty (registry : ColorRegistry) : Bool := registry.size == 0

/-- The default value of an identifier for a kind of theme. -/
def default? (registry : ColorRegistry) (kind : ThemeKind) (id : String) : Option ColorValue :=
  (registry.get? id).bind (·.defaults.get kind)

/-- How a registry is described: its identifiers in order. -/
def describe (registry : ColorRegistry) : String :=
  "ColorRegistry \x7b colors: " ++ Text.quotedList registry.ids ++ ", .. \x7d"

end ColorRegistry

end Highlight
