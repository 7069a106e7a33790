import Highlight.Json.Value
import Highlight.Registry.Basic

/-!
# Schemas of the registry

Two JSON schemas follow the registry: one for the `colors` object of a theme, with a property per
registered color, and one for a text that names a registered color.
-/

namespace Highlight

/-- The texts that spell a color which is not opaque. -/
def transparentPattern : String :=
  "^#(?:(?<rgba>[0-9a-fA-f]\x7b3\x7d[0-9a-eA-E])|(?:[0-9a-fA-F]\x7b6\x7d" ++
    "(?:(?![fF]\x7b2\x7d)(?:[0-9a-fA-F]\x7b2\x7d))))?$"

/-- The schema of the text that gives a contribution its color. -/
def Contribution.schema (contribution : Contribution) : Json :=
  .record <|
    [("type", .text "string"),
     ("description", .text contribution.description),
     ("format", .text "color-hex"),
     ("defaultSnippets", .list [.record [("body", .text "$\x7b1:#ff0000\x7d")]])] ++
    (if contribution.needsTransparency then
      [("pattern", .text transparentPattern),
       ("patternErrorMessage",
         .text "This color must be transparent or it will obscure content")]
    else []) ++
    match contribution.deprecation with
    | some message => [("deprecationMessage", .text message)]
    | none => []

namespace ColorRegistry

/-- The schema of the `colors` object of a theme. -/
def colorSchema (registry : ColorRegistry) : Json :=
  .record [("type", .text "object"),
    ("properties",
      .record (registry.toList.map fun contribution => (contribution.id, contribution.schema)))]

/-- The schema of a text that names a registered color. -/
def referenceSchema (registry : ColorRegistry) : Json :=
  .record [("type", .text "string"),
    ("enum", Json.texts registry.ids),
    ("enumDescriptions", Json.texts (registry.toList.map (·.description)))]

end ColorRegistry

end Highlight
