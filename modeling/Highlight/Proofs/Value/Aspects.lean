import Highlight.Proofs.Color.Derived
import Highlight.Proofs.Value.Termination

/-!
# Channels and opacity are derived apart

What a derived color is made of never mixes the three channels of a color with its opacity. Each of
the two is an `Aspect`: a part of the color that goes into that part of a derived color only. So two
set-ups that differ outside of an aspect alone (`Theme.Alike`, `ColorValue.Alike`) give colors that
agree in it, or both give none. The aspect decides nothing about whether there is a color: that
depends on the identifiers that are defined and on the meter.

No law of floating-point arithmetic is used. Operations on numbers give the same result for the same
arguments, and that is all.
-/

namespace Highlight

/-! ### Aspects -/

/-- A part of a color that depends on the same part of the colors it is derived from, on factors,
and on nothing else about these colors. -/
structure Aspect where
  Part : Type
  part : Color → Part
  /-- Whether two factors of lightness make no difference to the part. -/
  SameShade : Float → Float → Prop
  /-- Whether two factors of opacity make no difference to the part. -/
  SameOpacity : Float → Float → Prop
  darken : ∀ {c d f g}, part c = part d → SameShade f g → part (c.darken f) = part (d.darken g)
  lighten : ∀ {c d f g}, part c = part d → SameShade f g → part (c.lighten f) = part (d.lighten g)
  transparent : ∀ {c d f g}, part c = part d → SameOpacity f g →
    part (c.transparent f) = part (d.transparent g)
  /-- Opacities that make no difference make none when they are scaled by one factor. -/
  scaled : ∀ {t u} (factor : Float), SameOpacity t u → SameOpacity (factor * t) (factor * u)
  lessProminent_some : ∀ {c d background other t u} (factor : Float), part c = part d →
    part background = part other → SameOpacity t u →
      part (c.lessProminent (some background) factor t) =
        part (d.lessProminent (some other) factor u)

namespace Aspect

/-- Red, green and blue: factors of opacity make no difference. -/
def channels : Aspect where
  Part := UInt8 × UInt8 × UInt8
  part := Color.channels
  SameShade f g := f = g
  SameOpacity _ _ := True
  darken h hf := by
    subst hf
    exact Color.channels_withLightness h _
  lighten h hf := by
    subst hf
    exact Color.channels_withLightness h _
  transparent h _ := h
  scaled _ h := h
  lessProminent_some factor h hbackground _ :=
    Color.channels_lessProminent_some h hbackground factor

/-- Opacity: factors of lightness make no difference. -/
def alpha : Aspect where
  Part := UInt8
  part := Color.alpha
  SameShade _ _ := True
  SameOpacity f g := f = g
  darken h _ := by simpa using h
  lighten h _ := by simpa using h
  transparent h hf := by
    subst hf
    exact Color.alpha_transparent_congr h _
  scaled factor h := congrArg (factor * ·) h
  lessProminent_some factor h _ ht := by
    subst ht
    rw [Color.alpha_lessProminent_some, Color.alpha_lessProminent_some]
    exact Color.alpha_transparent_congr h _

variable (aspect : Aspect)

/-- What agrees in an aspect is there on both sides or on neither. -/
theorem none_or_some {color other : Option Color}
    (h : color.map aspect.part = other.map aspect.part) :
    (color = none ∧ other = none) ∨
      ∃ c d, color = some c ∧ other = some d ∧ aspect.part c = aspect.part d := by
  cases color with
  | none =>
      have hnone : other = none := by simpa using h.symm
      exact .inl ⟨rfl, hnone⟩
  | some c =>
      obtain ⟨d, hd, hpart⟩ := Option.map_eq_some_iff.mp h.symm
      exact .inr ⟨c, d, rfl, hd, hpart.symm⟩

/-- Colors derived in the same way from colors that agree in an aspect agree in it. -/
theorem map_derived {color other : Option Color} {derive deriveOther : Color → Color}
    (h : color.map aspect.part = other.map aspect.part)
    (hderive : ∀ {c d}, aspect.part c = aspect.part d →
      aspect.part (derive c) = aspect.part (deriveOther d)) :
    (color.map derive).map aspect.part = (other.map deriveOther).map aspect.part := by
  rcases aspect.none_or_some h with ⟨rfl, rfl⟩ | ⟨c, d, rfl, rfl, hpart⟩
  · rfl
  · exact congrArg some (hderive hpart)

/-- A missing background is missing on both sides, and then only the opacity is scaled. -/
theorem lessProminent {c d : Color} {under below : Option Color} {t u : Float} (factor : Float)
    (h : aspect.part c = aspect.part d) (hunder : under.map aspect.part = below.map aspect.part)
    (ht : aspect.SameOpacity t u) :
    aspect.part (c.lessProminent under factor t) =
      aspect.part (d.lessProminent below factor u) := by
  rcases aspect.none_or_some hunder with ⟨rfl, rfl⟩ | ⟨a, b, rfl, rfl, hpart⟩
  · exact aspect.transparent h (aspect.scaled factor ht)
  · exact aspect.lessProminent_some factor h hpart ht

end Aspect

/-! ### Set-ups of one shape -/

mutual

/-- The values are the same up to what makes no difference to an aspect: other parts of the colors
in them, and factors. Neither has custom computations. -/
inductive ColorValue.Alike (aspect : Aspect) : ColorValue → ColorValue → Prop where
  | literal {c d} (hpart : aspect.part c = aspect.part d) : Alike aspect (.literal c) (.literal d)
  | reference (id) : Alike aspect (.reference id) (.reference id)
  | darken {v w f g} (hvalue : Alike aspect v w) (hfactor : aspect.SameShade f g) :
      Alike aspect (.darken v f) (.darken w g)
  | lighten {v w f g} (hvalue : Alike aspect v w) (hfactor : aspect.SameShade f g) :
      Alike aspect (.lighten v f) (.lighten w g)
  | transparent {v w f g} (hvalue : Alike aspect v w) (hfactor : aspect.SameOpacity f g) :
      Alike aspect (.transparent v f) (.transparent w g)
  | oneOf {vs ws} (hvalues : AllAlike aspect vs ws) : Alike aspect (.oneOf vs) (.oneOf ws)
  | lessProminent {v w under below factor t u} (hvalue : Alike aspect v w)
      (hbackground : Alike aspect under below) (htransparency : aspect.SameOpacity t u) :
      Alike aspect (.lessProminent v under factor t) (.lessProminent w below factor u)

inductive ColorValue.AllAlike (aspect : Aspect) : List ColorValue → List ColorValue → Prop where
  | nil : AllAlike aspect [] []
  | cons {v w vs ws} (hvalue : Alike aspect v w) (hrest : AllAlike aspect vs ws) :
      AllAlike aspect (v :: vs) (w :: ws)

end

/-- The themes define the same identifiers, with colors that agree in an aspect, and the same
identifiers have defaults in them, which are alike. Nothing else about themes and registries goes
into resolution. -/
structure Theme.Alike (aspect : Aspect) (theme other : Theme) : Prop where
  colors : ∀ id : String, theme.colors[id]?.map aspect.part = other.colors[id]?.map aspect.part
  defaults : ∀ id, (theme.default? id = none ∧ other.default? id = none) ∨
    ∃ value changed, theme.default? id = some value ∧ other.default? id = some changed ∧
      value.Alike aspect changed

variable {aspect : Aspect}

namespace ColorValue

mutual

theorem Alike.customFree {value other : ColorValue} :
    Alike aspect value other → value.CustomFree ∧ other.CustomFree
  | .literal _ | .reference _ => ⟨trivial, trivial⟩
  | .darken hvalue _ | .lighten hvalue _ | .transparent hvalue _ => hvalue.customFree
  | .oneOf hvalues => hvalues.customFree
  | .lessProminent hvalue hbackground _ =>
      ⟨⟨hvalue.customFree.1, hbackground.customFree.1⟩,
        ⟨hvalue.customFree.2, hbackground.customFree.2⟩⟩

theorem AllAlike.customFree {values others : List ColorValue} :
    AllAlike aspect values others → AllCustomFree values ∧ AllCustomFree others
  | .nil => ⟨trivial, trivial⟩
  | .cons hvalue hrest =>
      ⟨⟨hvalue.customFree.1, hrest.customFree.1⟩, ⟨hvalue.customFree.2, hrest.customFree.2⟩⟩

end

mutual

/-- Whether a value has a color is the same for like values, and so is the color as far as the
aspect goes. In a choice like values are taken, since the ones before them have no color. -/
theorem Alike.map_colorIn {colors changed : String → Option Color}
    (hcolors : ∀ id, (colors id).map aspect.part = (changed id).map aspect.part)
    {value other : ColorValue} : Alike aspect value other →
      (value.colorIn colors).map aspect.part = (other.colorIn changed).map aspect.part
  | .literal hpart => congrArg some hpart
  | .reference id => by
      simp only [colorIn]
      split_ifs
      · rfl
      · exact hcolors id
  | .darken hvalue hfactor =>
      aspect.map_derived (hvalue.map_colorIn hcolors) fun hpart => aspect.darken hpart hfactor
  | .lighten hvalue hfactor =>
      aspect.map_derived (hvalue.map_colorIn hcolors) fun hpart => aspect.lighten hpart hfactor
  | .transparent hvalue hfactor =>
      aspect.map_derived (hvalue.map_colorIn hcolors) fun hpart => aspect.transparent hpart hfactor
  | .oneOf hvalues => hvalues.map_firstIn hcolors
  | .lessProminent hvalue hbackground htransparency => by
      have hmap := hvalue.map_colorIn hcolors
      have hunder := hbackground.map_colorIn hcolors
      exact aspect.map_derived hmap fun hpart =>
        aspect.lessProminent _ hpart hunder htransparency

theorem AllAlike.map_firstIn {colors changed : String → Option Color}
    (hcolors : ∀ id, (colors id).map aspect.part = (changed id).map aspect.part)
    {values others : List ColorValue} : AllAlike aspect values others →
      (firstIn colors values).map aspect.part = (firstIn changed others).map aspect.part
  | .nil => rfl
  | .cons hvalue hrest => by
      rw [firstIn, firstIn, Option.map_or, Option.map_or, hvalue.map_colorIn hcolors,
        hrest.map_firstIn hcolors]

end

end ColorValue

namespace Theme.Alike

variable {theme other : Theme}

theorem customFree (h : theme.Alike aspect other) : theme.CustomFree ∧ other.CustomFree := by
  constructor
  · intro id value hvalue
    rcases h.defaults id with ⟨hnone, -⟩ | ⟨_, _, hdefault, -, halike⟩
    · simp [hnone] at hvalue
    · obtain rfl := Option.some.inj (hdefault.symm.trans hvalue)
      exact halike.customFree.1
  · intro id changed hchanged
    rcases h.defaults id with ⟨-, hnone⟩ | ⟨_, _, -, hdefault, halike⟩
    · simp [hnone] at hchanged
    · obtain rfl := Option.some.inj (hdefault.symm.trans hchanged)
      exact halike.customFree.2

/-! Set-ups stay of one shape when the same identifiers are defined or registered in both. -/

theorem empty (aspect : Aspect) :
    (({} : Theme).attach .empty).Alike aspect (({} : Theme).attach .empty) where
  colors _ := rfl
  defaults id := .inl ⟨ColorRegistry.default?_empty .dark id, ColorRegistry.default?_empty .dark id⟩

theorem withColor (h : theme.Alike aspect other) (id : String) {c d : Color}
    (hpart : aspect.part c = aspect.part d) :
    (theme.withColor id c).Alike aspect (other.withColor id d) where
  colors asked := by
    simp only [Theme.withColor, Std.HashMap.getElem?_insert]
    split
    · exact congrArg some hpart
    · exact h.colors asked
  defaults := h.defaults

theorem register {registry changed : ColorRegistry}
    (h : (theme.attach registry).Alike aspect (other.attach changed))
    (id : String) {contribution new : Contribution} (hid : contribution.id = id)
    (hnew : new.id = id) {value instead : ColorValue}
    (hvalue : contribution.defaults.get theme.kind = some value)
    (hinstead : new.defaults.get other.kind = some instead) (halike : value.Alike aspect instead) :
    (theme.attach (registry.insert contribution)).Alike aspect
      (other.attach (changed.insert new)) where
  colors := h.colors
  defaults asked := by
    have hbefore := h.defaults asked
    rw [default?_eq rfl, default?_eq rfl] at hbefore ⊢
    rw [ColorRegistry.default?_insert, ColorRegistry.default?_insert, hid, hnew]
    split
    · exact .inr ⟨value, instead, hvalue, hinstead, halike⟩
    · exact hbefore

/-- What references give agrees, by induction on how many more of them may be opened. -/
theorem map_followed (h : theme.Alike aspect other) (room : Nat) (id : String) :
    (theme.followed room id).map aspect.part = (other.followed room id).map aspect.part := by
  induction room generalizing id with
  | zero => rfl
  | succ room ih =>
      rw [followed, followed]
      rcases aspect.none_or_some (h.colors id) with ⟨hown, hown'⟩ | ⟨c, d, hown, hown', hpart⟩
      · rw [hown, hown']
        rcases h.defaults id with ⟨hnone, hnone'⟩ | ⟨_, _, hvalue, hvalue', halike⟩
        · rw [hnone, hnone']
          rfl
        · rw [hvalue, hvalue']
          exact halike.map_colorIn ih
      · rw [hown, hown']
        exact congrArg some hpart

/-- Resolution agrees in the aspect, and as to whether there is a color at all. -/
theorem map_run_resolve (h : theme.Alike aspect other) {value changed : ColorValue}
    (hvalue : value.Alike aspect changed) (meter : Nat) :
    ((value.resolve theme.view).run meter).1.map aspect.part =
      ((changed.resolve other.view).run meter).1.map aspect.part := by
  rw [run_resolve h.customFree.1 hvalue.customFree.1,
    run_resolve h.customFree.2 hvalue.customFree.2]
  exact hvalue.map_colorIn (h.map_followed (maxReferences - meter))

end Theme.Alike

/-! ### The main results -/

/-- **Channels do not depend on opacity.** In set-ups that differ in the opacity of colors, in
factors of `transparent` and in transparencies of `lessProminent`, the same values have a color from
every start of the meter, with the same red, green and blue. -/
theorem channels_resolve_alike {theme other : Theme} (htheme : theme.Alike .channels other)
    {value changed : ColorValue} (hvalue : value.Alike .channels changed) (meter : Nat) :
    ((value.resolve theme.view).run meter).1.map Color.channels =
      ((changed.resolve other.view).run meter).1.map Color.channels :=
  htheme.map_run_resolve hvalue meter

/-- A color in front of a background, faded to half of its opacity or by a number that is none. -/
theorem channels_resolve_alike_faded :
    let bg (color : Color) : Contribution := ⟨"bg", "", .all (.literal color), false, none⟩
    let accent (transparency : Float) : Contribution :=
      ⟨"accent", "", .all (.lessProminent (.reference "fg") (.reference "bg") 0.5 transparency),
        false, none⟩
    let theme : Theme :=
      ({} : Theme).attach ((ColorRegistry.empty.insert (bg .white)).insert (accent 0.5))
        |>.withColor "fg" ⟨16, 32, 48, 255⟩
    let other : Theme :=
      ({} : Theme).attach
          ((ColorRegistry.empty.insert (bg ⟨255, 255, 255, 0⟩)).insert (accent (0.0 / 0.0)))
        |>.withColor "fg" ⟨16, 32, 48, 7⟩
    let value (factor : Float) : ColorValue :=
      .oneOf [.reference "gone", .transparent (.reference "accent") factor]
    theme.Alike .channels other ∧ (value 0.5).Alike .channels (value 2.0) ∧
      (((value 0.5).resolve theme.view).run 3).1.isSome = true ∧
      (((value 0.5).resolve theme.view).run 3).1.map Color.channels =
        (((value 2.0).resolve other.view).run 3).1.map Color.channels := by
  intro bg accent theme other value
  have hbg : (({} : Theme).attach (ColorRegistry.empty.insert (bg .white))).Alike .channels
      (({} : Theme).attach (ColorRegistry.empty.insert (bg ⟨255, 255, 255, 0⟩))) :=
    (Theme.Alike.empty .channels).register "bg" rfl rfl rfl rfl (.literal rfl)
  have htheme : theme.Alike .channels other :=
    .withColor (hbg.register "accent" rfl rfl rfl rfl
      (.lessProminent (.reference "fg") (.reference "bg") trivial)) "fg" rfl
  have hvalue : (value 0.5).Alike .channels (value 2.0) :=
    .oneOf (.cons (.reference "gone") (.cons (.transparent (.reference "accent") trivial) .nil))
  refine ⟨htheme, hvalue, ?_, channels_resolve_alike htheme hvalue 3⟩
  obtain ⟨room, hroom⟩ : ∃ room, maxReferences - 3 = room + 1 + 1 := ⟨59, rfl⟩
  rw [Theme.run_resolve htheme.customFree.1 hvalue.customFree.1, hroom]
  simp [value, theme, bg, accent, ColorValue.colorIn, ColorValue.firstIn, Theme.followed,
    Theme.withColor, Theme.attach, Theme.default?, ColorRegistry.default?_insert,
    ColorRegistry.default?_empty, ColorDefaults.all, ColorDefaults.get]

/-- **Opacity does not depend on channels.** In set-ups that differ in the channels of colors and in
factors of `darken` and `lighten`, the same values have a color from every start of the meter, with
the same opacity. The functions that change the lightness of a color keep its opacity in all their
branches, and a value made less prominent before some background is as opaque as the value made
transparent. -/
theorem alpha_resolve_alike {theme other : Theme} (htheme : theme.Alike .alpha other)
    {value changed : ColorValue} (hvalue : value.Alike .alpha changed) (meter : Nat) :
    ((value.resolve theme.view).run meter).1.map Color.alpha =
        ((changed.resolve other.view).run meter).1.map Color.alpha ∧
      (∀ (c target : Color) (factor : Float),
        (c.darken factor).alpha = c.alpha ∧ (c.lighten factor).alpha = c.alpha ∧
          (c.lightenTowards target factor).alpha = c.alpha ∧
          (c.darkenTowards target factor).alpha = c.alpha) ∧
      ∀ (front background : ColorValue) (factor transparency : Float),
        front.CustomFree → background.CustomFree →
          ((background.resolve theme.view).run meter).1.isSome = true →
            (((ColorValue.lessProminent front background factor transparency).resolve
                theme.view).run meter).1.map Color.alpha =
              (((ColorValue.transparent front transparency).resolve theme.view).run
                meter).1.map Color.alpha := by
  refine ⟨htheme.map_run_resolve hvalue meter, fun c target factor => ?_, ?_⟩
  · exact ⟨Color.alpha_darken c factor, Color.alpha_lighten c factor,
      Color.alpha_lightenTowards c target factor, Color.alpha_darkenTowards c target factor⟩
  · intro front background factor transparency hfront hbackground hsome
    have hfree := htheme.customFree.1
    have hmoved : (ColorValue.lessProminent front background factor transparency).CustomFree :=
      ⟨hfront, hbackground⟩
    have hfaded : (ColorValue.transparent front transparency).CustomFree := hfront
    rw [Theme.run_resolve hfree hbackground] at hsome
    obtain ⟨under, hunder⟩ := Option.isSome_iff_exists.mp hsome
    dsimp only at hunder
    rw [Theme.run_resolve hfree hmoved, Theme.run_resolve hfree hfaded]
    simp only [ColorValue.colorIn, hunder, Option.map_map]
    refine Option.map_congr fun c _ => ?_
    exact Color.alpha_lessProminent_some c under factor transparency

/-- Another text color in front of another background, with the same opacities, darkened by another
factor. -/
theorem alpha_resolve_alike_recolored :
    let bg (color : Color) : Contribution := ⟨"bg", "", .all (.literal color), false, none⟩
    let accent : Contribution :=
      ⟨"accent", "", .all (.lessProminent (.reference "fg") (.reference "bg") 0.5 0.25), false,
        none⟩
    let theme : Theme :=
      ({} : Theme).attach ((ColorRegistry.empty.insert (bg .white)).insert accent)
        |>.withColor "fg" ⟨16, 32, 48, 128⟩
    let other : Theme :=
      ({} : Theme).attach ((ColorRegistry.empty.insert (bg .black)).insert accent)
        |>.withColor "fg" ⟨200, 0, 0, 128⟩
    let value (factor : Float) : ColorValue := .darken (.reference "accent") factor
    let front : ColorValue := .reference "fg"
    let background : ColorValue := .reference "bg"
    theme.Alike .alpha other ∧ (value 0.5).Alike .alpha (value 0.9) ∧
      (((value 0.5).resolve theme.view).run 3).1.map Color.alpha =
        (((value 0.9).resolve other.view).run 3).1.map Color.alpha ∧
      front.CustomFree ∧ background.CustomFree ∧
      ((background.resolve theme.view).run 3).1.isSome = true ∧
      (((ColorValue.lessProminent front background 0.5 0.25).resolve theme.view).run 3).1.map
          Color.alpha =
        (((ColorValue.transparent front 0.25).resolve theme.view).run 3).1.map Color.alpha := by
  intro bg accent theme other value front background
  have hbg : (({} : Theme).attach (ColorRegistry.empty.insert (bg .white))).Alike .alpha
      (({} : Theme).attach (ColorRegistry.empty.insert (bg .black))) :=
    (Theme.Alike.empty .alpha).register "bg" rfl rfl rfl rfl (.literal rfl)
  have htheme : theme.Alike .alpha other :=
    .withColor (hbg.register "accent" rfl rfl rfl rfl
      (.lessProminent (.reference "fg") (.reference "bg") rfl)) "fg" rfl
  have hvalue : (value 0.5).Alike .alpha (value 0.9) := .darken (.reference "accent") trivial
  have hfree : background.CustomFree := trivial
  have hsome : ((background.resolve theme.view).run 3).1.isSome = true := by
    obtain ⟨room, hroom⟩ : ∃ room, maxReferences - 3 = room + 1 := ⟨60, rfl⟩
    rw [Theme.run_resolve htheme.customFree.1 hfree, hroom]
    simp [background, theme, bg, accent, ColorValue.colorIn, Theme.followed, Theme.withColor,
      Theme.attach, Theme.default?, ColorRegistry.default?_insert, ColorDefaults.all,
      ColorDefaults.get]
  obtain ⟨hcolor, -, hfront⟩ := alpha_resolve_alike htheme hvalue 3
  exact ⟨htheme, hvalue, hcolor, trivial, hfree, hsome,
    hfront front background 0.5 0.25 trivial hfree hsome⟩

end Highlight
