import Std.Data.HashMap
import Highlight.Color.Basic
import Highlight.Token.Metadata

/-!
# Color tables

Metadata words have nine bits for a color, so a theme numbers its colors. Numbers start at 1; the
first two belong to the default foreground and background, and every other color gets the next free
number when it is first needed. Once the table is full, a further color shares the number given as
its fallback.

The colors are kept twice: in the order of their numbers, and in a map that gives the number of a
color. Both are changed together.
-/

namespace Highlight

/-- The numbered colors of a theme. -/
structure ColorTable where
  /-- The color of number `i` stands at position `i - 1`. -/
  colors : List Color
  /-- The numbers of the colors. -/
  ids : Std.HashMap Color Nat

namespace ColorTable

/-- The table of the two default colors. If they are the same, the color has the first number. -/
def ofDefaults (foreground background : Color) : ColorTable where
  colors := [foreground, background]
  ids :=
    (Std.HashMap.insert {} foreground Metadata.defaultForeground).insertIfNew background
      Metadata.defaultBackground

/-- How many numbers are in use. -/
def size (table : ColorTable) : Nat := table.colors.length

/-- Whether no number is in use. -/
def isEmpty (table : ColorTable) : Bool := table.colors.isEmpty

/-- The number of a color. -/
def number? (table : ColorTable) (color : Color) : Option Nat := table.ids[color]?

/-- The color of a number. -/
def color? (table : ColorTable) (number : Nat) : Option Color :=
  if number = 0 then none else table.colors[number - 1]?

/-- The table with a color behind all others, under the next number. -/
def push (table : ColorTable) (color : Color) : ColorTable where
  colors := table.colors ++ [color]
  ids := table.ids.insert color (table.size + 1)

/-- The number of a color, which is entered if it is new and there is room. -/
def intern (table : ColorTable) (color : Color) (fallback : Nat) : Nat × ColorTable :=
  match table.number? color with
  | some number => (number, table)
  | none =>
    if Metadata.maxColorIndex ≤ table.size then (fallback, table)
    else
      let table := table.push color
      (table.size, table)

/-- The number of a color that may be missing. -/
def internOption (table : ColorTable) (color : Option Color) (fallback : Nat) :
    Option Nat × ColorTable :=
  match color with
  | none => (none, table)
  | some color =>
    let (number, table) := table.intern color fallback
    (some number, table)

end ColorTable

end Highlight
