import Highlight.Value.Resolve

/-!
# Values over colors of identifiers

What a value without custom computations makes of a theme depends on the identifiers it refers to
(`references`) and on nothing else. Given a color or no color for each of them, the color of the
value is composed from the colors of its parts (`colorIn`), with no meter and no order in which
the parts are looked at.
-/

namespace Highlight.ColorValue

/-! ### Custom computations -/

mutual

/-- No part of the value is a custom computation. -/
def CustomFree : ColorValue → Prop
  | literal _ | reference _ => True
  | darken value _ | lighten value _ | transparent value _ => CustomFree value
  | oneOf values => AllCustomFree values
  | lessProminent value background _ _ => CustomFree value ∧ CustomFree background
  | custom _ => False

def AllCustomFree : List ColorValue → Prop
  | [] => True
  | value :: rest => CustomFree value ∧ AllCustomFree rest

end

/-! ### References -/

mutual

/-- The identifiers that the value refers to. What starts with `#` is a color and no identifier. -/
def references : ColorValue → List String
  | literal _ | custom _ => []
  | reference id => if id.toList.head? = some '#' then [] else [id]
  | darken value _ | lighten value _ | transparent value _ => references value
  | oneOf values => referencesOfAll values
  | lessProminent value background _ _ => references value ++ references background

def referencesOfAll : List ColorValue → List String
  | [] => []
  | value :: rest => references value ++ referencesOfAll rest

end

/-! ### Evaluation -/

mutual

/-- The color of a value, given the colors of identifiers. A custom computation gives none. -/
def colorIn (colors : String → Option Color) : ColorValue → Option Color
  | literal color => some color
  | reference id =>
      if id.toList.head? = some '#' then (Color.ofHex id).toOption else colors id
  | darken value factor => (colorIn colors value).map (·.darken factor)
  | lighten value factor => (colorIn colors value).map (·.lighten factor)
  | transparent value factor => (colorIn colors value).map (·.transparent factor)
  | oneOf values => firstIn colors values
  | lessProminent value background factor transparency =>
      (colorIn colors value).map fun color =>
        color.lessProminent (colorIn colors background) factor transparency
  | custom _ => none

/-- The color of the first value that has one. -/
def firstIn (colors : String → Option Color) : List ColorValue → Option Color
  | [] => none
  | value :: rest => (colorIn colors value).or (firstIn colors rest)

end

variable {colors others : String → Option Color}

mutual

/-- Only the identifiers that a value refers to matter for its color. -/
theorem colorIn_congr : ∀ {value : ColorValue},
    (∀ id ∈ value.references, colors id = others id) → value.colorIn colors = value.colorIn others
  | literal _, _ => rfl
  | reference id, h => by
      by_cases hid : id.toList.head? = some '#'
      · simp [colorIn, hid]
      · simpa [colorIn, hid] using h id (by simp [references, hid])
  | darken value _, h => by
      have hvalue : value.colorIn colors = value.colorIn others := colorIn_congr h
      simp only [colorIn, hvalue]
  | lighten value _, h => by
      have hvalue : value.colorIn colors = value.colorIn others := colorIn_congr h
      simp only [colorIn, hvalue]
  | transparent value _, h => by
      have hvalue : value.colorIn colors = value.colorIn others := colorIn_congr h
      simp only [colorIn, hvalue]
  | oneOf values, h => by
      have hvalues : firstIn colors values = firstIn others values := firstIn_congr h
      simp only [colorIn, hvalues]
  | lessProminent value background _ _, h => by
      simp only [references, List.mem_append] at h
      have hvalue : value.colorIn colors = value.colorIn others :=
        colorIn_congr fun id hmem => h id (.inl hmem)
      have hbackground : background.colorIn colors = background.colorIn others :=
        colorIn_congr fun id hmem => h id (.inr hmem)
      simp only [colorIn, hvalue, hbackground]
  | custom _, _ => rfl

theorem firstIn_congr : ∀ {values : List ColorValue},
    (∀ id ∈ referencesOfAll values, colors id = others id) →
      firstIn colors values = firstIn others values
  | [], _ => rfl
  | value :: rest, h => by
      simp only [referencesOfAll, List.mem_append] at h
      have hvalue : value.colorIn colors = value.colorIn others :=
        colorIn_congr fun id hmem => h id (.inl hmem)
      have hrest : firstIn colors rest = firstIn others rest :=
        firstIn_congr fun id hmem => h id (.inr hmem)
      simp only [firstIn, hvalue, hrest]

end

end Highlight.ColorValue
