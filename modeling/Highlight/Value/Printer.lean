import Highlight.Decimal.Layout
import Highlight.Text.Quoted
import Highlight.Value.Basic

/-!
# Describing color values

A value is described by the expression it is. Literals show their canonical spelling, references are
quoted, and factors are written positionally with as few digits as identify them.
-/

namespace Highlight.ColorValue

/-- Factors are written without an exponent and, if whole, without a point. -/
def factorLayout : Decimal.Layout where
  plainFrom := -400
  plainBelow := 400
  pointZero := false
  expPlus := false
  tieUp := true

/-- A name with arguments in parentheses. -/
def application (name : String) (arguments : List String) : String :=
  name ++ "(" ++ ", ".intercalate arguments ++ ")"

mutual

/-- The description of a value. -/
def describe : ColorValue → String
  | literal color => color.toHex
  | reference id => Text.quoted id
  | darken value factor => application "darken" [describe value, factorLayout.render factor]
  | lighten value factor => application "lighten" [describe value, factorLayout.render factor]
  | transparent value factor =>
    application "transparent" [describe value, factorLayout.render factor]
  | oneOf values => application "oneOf" ["[" ++ ", ".intercalate (describeAll values) ++ "]"]
  | lessProminent value background factor transparency =>
    application "lessProminent"
      [describe value, describe background, factorLayout.render factor,
        factorLayout.render transparency]
  | custom _ => "custom(..)"

/-- The descriptions of several values. -/
def describeAll : List ColorValue → List String
  | [] => []
  | value :: rest => describe value :: describeAll rest

end

end Highlight.ColorValue
