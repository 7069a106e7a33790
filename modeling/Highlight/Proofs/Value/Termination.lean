import Highlight.Proofs.Value.Evaluation
import Highlight.Theme.Basic

/-!
# Resolution ends and gives back the meter

`Theme.Yields` says how a color is found without any bound but that of the meter: a derivation is a
finite computation, and it tells how many look-ups of references stand inside of one another.
Nothing about the registry keeps it from being cyclic, and a value may refer to itself from
within every combinator. Still every request without custom computations has a derivation, by
induction on the room that the meter leaves and, for the same room, on the value. The derivation is
what the program computes (`Yields.run`), so the bound on open questions is never what ends it.
-/

namespace Highlight

/-! ### Metered computations -/

namespace Metered

variable {α β : Type}

theorem run_pure (a : α) (meter : Nat) : (pure a : Metered α).run meter = (a, meter) := rfl

theorem run_bind (x : Metered α) (f : α → Metered β) (meter : Nat) :
    (x >>= f).run meter = (f (x.run meter).1).run (x.run meter).2 := rfl

end Metered

theorem run_follow (view : ThemeView) (id : String) (meter : Nat) :
    (view.follow id).run meter =
      if maxReferences ≤ meter then (none, meter)
      else (((view.color id).run (meter + 1)).1, ((view.color id).run (meter + 1)).2 - 1) := by
  -- the open reference is counted before the meter is looked at
  change StateT.run (if meter + 1 > maxReferences then _ else _ : Metered (Option Color))
    (meter + 1) = _
  by_cases hfull : maxReferences ≤ meter
  · rw [if_pos hfull, if_pos (by omega)]
    rfl
  · rw [if_neg hfull, if_neg (by omega)]
    rfl

/-! ### Requests -/

/-- What may be asked of a theme. -/
inductive Request where
  | value (value : ColorValue)
  /-- The first of the values that has a color. -/
  | firstOf (values : List ColorValue)
  | color (id : String)
  /-- The default of an identifier in a registry. -/
  | default (registry : ColorRegistry) (id : String)

/-- The defaults of a registry for a kind of theme are without custom computations. -/
def ColorRegistry.CustomFree (registry : ColorRegistry) (kind : ThemeKind) : Prop :=
  ∀ id value, registry.default? kind id = some value → value.CustomFree

/-- The defaults that stand in for colors of the theme are without custom computations. -/
def Theme.CustomFree (theme : Theme) : Prop :=
  ∀ id value, theme.default? id = some value → value.CustomFree

theorem Theme.default?_eq {theme : Theme} {registry : ColorRegistry}
    (hregistry : theme.registry = some registry) (id : String) :
    theme.default? id = registry.default? theme.kind id := by
  rw [default?, hregistry, Option.bind_some]

theorem Theme.default?_attach (theme : Theme) (registry : ColorRegistry) (id : String) :
    (theme.attach registry).default? id = registry.default? theme.kind id := rfl

theorem ColorRegistry.default?_empty (kind : ThemeKind) (id : String) :
    ColorRegistry.empty.default? kind id = none := by
  simp [empty, default?, get?]

theorem ColorRegistry.default?_insert (registry : ColorRegistry) (contribution : Contribution)
    (kind : ThemeKind) (id : String) :
    (registry.insert contribution).default? kind id =
      if contribution.id = id then contribution.defaults.get kind
      else registry.default? kind id := by
  simp only [default?, get?, insert, Std.HashMap.getElem?_insert, beq_iff_eq]
  split <;> rfl

theorem ColorRegistry.CustomFree.empty {kind : ThemeKind} :
    ColorRegistry.empty.CustomFree kind := by
  intro id value hvalue
  simp [default?_empty] at hvalue

theorem ColorRegistry.CustomFree.insert {registry : ColorRegistry} {contribution : Contribution}
    {kind : ThemeKind} (hregistry : registry.CustomFree kind)
    (hnew : ∀ value, contribution.defaults.get kind = some value → value.CustomFree) :
    (registry.insert contribution).CustomFree kind := by
  intro id value hvalue
  rw [default?_insert] at hvalue
  split at hvalue
  next => exact hnew value hvalue
  next => exact hregistry id value hvalue

namespace Request

/-- The request with a theme that may look up `bound` identifiers inside of one another. -/
def within (theme : Theme) (bound : Nat) : Request → Metered (Option Color)
  | value v => v.resolve ⟨theme.kind, theme.colorWithin bound⟩
  | firstOf values => ColorValue.resolveFirst ⟨theme.kind, theme.colorWithin bound⟩ values
  | color id => theme.colorWithin (bound + 1) id
  | default registry id =>
      match registry.default? theme.kind id with
      | none => pure none
      | some v => v.resolve ⟨theme.kind, theme.colorWithin bound⟩

/-- Makes the request. -/
def ask (theme : Theme) : Request → Metered (Option Color)
  | value v => v.resolve theme.view
  | firstOf values => ColorValue.resolveFirst theme.view values
  | color id => theme.view.color id
  | default registry id =>
      match registry.default? theme.kind id with
      | none => pure none
      | some v => v.resolve theme.view

/-- Neither the request nor any default behind it has a custom computation. -/
def CustomFree (theme : Theme) (request : Request) : Prop :=
  theme.CustomFree ∧
    match request with
    | value v => v.CustomFree
    | firstOf values => ColorValue.AllCustomFree values
    | color _ => True
    | default registry _ => registry.CustomFree theme.kind

/-- The request is made with a bound that no meter lets it reach. -/
theorem ask_eq_within (theme : Theme) (request : Request) :
    ∃ bound ≥ maxReferences, request.ask theme = request.within theme bound := by
  have hbound : maxReferences + 1 ≤ theme.questionBound := by
    unfold Theme.questionBound
    exact Nat.le_mul_of_pos_right _ (by omega)
  cases request with
  | color id =>
      refine ⟨theme.questionBound - 1, by omega, ?_⟩
      show theme.colorWithin theme.questionBound id = theme.colorWithin _ id
      rw [Nat.sub_add_cancel (by omega)]
  | _ => exact ⟨theme.questionBound, by omega, rfl⟩

end Request

/-! ### Derivations -/

namespace Theme

open Metered

/-- Made at `meter`, the request ends with `color` and leaves the meter at `after`; up to `nested`
look-ups of references were open at a time. -/
inductive Yields (theme : Theme) : Request → Nat → Option Color → Nat → Nat → Prop where
  | literal {color meter} : Yields theme (.value (.literal color)) meter (some color) meter 0
  | written {id meter} (hid : id.toList.head? = some '#') :
      Yields theme (.value (.reference id)) meter (Color.ofHex id).toOption meter 0
  /-- With too many references open, nothing is looked up. -/
  | refused {id meter} (hid : id.toList.head? ≠ some '#') (hfull : maxReferences ≤ meter) :
      Yields theme (.value (.reference id)) meter none meter 0
  | followed {id meter color after nested} (hid : id.toList.head? ≠ some '#')
      (hroom : meter < maxReferences)
      (hcolor : Yields theme (.color id) (meter + 1) color after nested) :
      Yields theme (.value (.reference id)) meter color (after - 1) (nested + 1)
  | darken {value factor meter color after nested}
      (hvalue : Yields theme (.value value) meter color after nested) :
      Yields theme (.value (.darken value factor)) meter (color.map (·.darken factor)) after nested
  | lighten {value factor meter color after nested}
      (hvalue : Yields theme (.value value) meter color after nested) :
      Yields theme (.value (.lighten value factor)) meter (color.map (·.lighten factor)) after
        nested
  | transparent {value factor meter color after nested}
      (hvalue : Yields theme (.value value) meter color after nested) :
      Yields theme (.value (.transparent value factor)) meter (color.map (·.transparent factor))
        after nested
  | oneOf {values meter color after nested}
      (hvalues : Yields theme (.firstOf values) meter color after nested) :
      Yields theme (.value (.oneOf values)) meter color after nested
  | lost {value background factor transparency meter after nested}
      (hvalue : Yields theme (.value value) meter none after nested) :
      Yields theme (.value (.lessProminent value background factor transparency)) meter none after
        nested
  | moved {value background factor transparency meter color between under after nested nested'}
      (hvalue : Yields theme (.value value) meter (some color) between nested)
      (hbackground : Yields theme (.value background) between under after nested') :
      Yields theme (.value (.lessProminent value background factor transparency)) meter
        (some (color.lessProminent under factor transparency)) after (max nested nested')
  | exhausted {meter} : Yields theme (.firstOf []) meter none meter 0
  | found {value rest meter color after nested}
      (hvalue : Yields theme (.value value) meter (some color) after nested) :
      Yields theme (.firstOf (value :: rest)) meter (some color) after nested
  | skipped {value rest meter between color after nested nested'}
      (hvalue : Yields theme (.value value) meter none between nested)
      (hrest : Yields theme (.firstOf rest) between color after nested') :
      Yields theme (.firstOf (value :: rest)) meter color after (max nested nested')
  | own {id color meter} (hown : theme.colors[id]? = some color) :
      Yields theme (.color id) meter (some color) meter 0
  | unattached {id meter} (hown : theme.colors[id]? = none) (hregistry : theme.registry = none) :
      Yields theme (.color id) meter none meter 0
  | attached {id registry meter color after nested} (hown : theme.colors[id]? = none)
      (hregistry : theme.registry = some registry)
      (hdefault : Yields theme (.default registry id) meter color after nested) :
      Yields theme (.color id) meter color after nested
  | missing {registry id meter} (hvalue : registry.default? theme.kind id = none) :
      Yields theme (.default registry id) meter none meter 0
  | resolved {registry id value meter color after nested}
      (hvalue : registry.default? theme.kind id = some value)
      (hcolor : Yields theme (.value value) meter color after nested) :
      Yields theme (.default registry id) meter color after nested

variable {theme : Theme} {request : Request} {meter after nested : Nat}
  {color : Option Color}

/-- The meter ends where it began, and there are no more open look-ups than it has room for. -/
theorem Yields.bounds (h : theme.Yields request meter color after nested) :
    after = meter ∧ nested ≤ maxReferences - meter := by
  induction h <;> omega

/-- A derivation is what the program computes, if it may look up as many identifiers inside of one
another. -/
theorem Yields.run (h : theme.Yields request meter color after nested) (bound : Nat)
    (hbound : nested ≤ bound) :
    (request.within theme bound).run meter = (color, after) := by
  induction h generalizing bound with
  | literal => rfl
  | written hid => simp only [Request.within, ColorValue.resolve, if_pos hid, run_pure]
  | refused hid hfull =>
      simp only [Request.within, ColorValue.resolve, if_neg hid, run_follow, if_pos hfull]
  | followed hid hroom _ ih =>
      -- the look-up uses up one of the identifiers that may be looked up
      obtain ⟨bound, rfl⟩ := Nat.exists_eq_succ_of_ne_zero (n := bound) (by omega)
      have hcolor := ih bound (by omega)
      simp only [Request.within] at hcolor
      simp only [Request.within, ColorValue.resolve, if_neg hid, run_follow,
        if_neg (Nat.not_le.mpr hroom), hcolor]
  | darken _ ih | lighten _ ih | transparent _ ih | lost _ ih =>
      have hvalue := ih bound hbound
      simp only [Request.within] at hvalue
      simp only [Request.within, ColorValue.resolve, run_bind, run_pure, hvalue]
  | oneOf _ ih => simpa only [Request.within, ColorValue.resolve] using ih bound hbound
  | moved _ _ ihvalue ihbackground =>
      have hvalue := ihvalue bound (by omega)
      have hbackground := ihbackground bound (by omega)
      simp only [Request.within] at hvalue hbackground
      simp only [Request.within, ColorValue.resolve, run_bind, run_pure, hvalue, hbackground]
  | exhausted => rfl
  | found _ ih =>
      have hvalue := ih bound hbound
      simp only [Request.within] at hvalue
      simp only [Request.within, ColorValue.resolveFirst, run_bind, run_pure, hvalue]
  | skipped _ _ ihvalue ihrest =>
      have hvalue := ihvalue bound (by omega)
      have hrest := ihrest bound (by omega)
      simp only [Request.within] at hvalue hrest
      simp only [Request.within, ColorValue.resolveFirst, run_bind, hvalue, hrest]
  | own hown => simp only [Request.within, Theme.colorWithin, hown, run_pure]
  | unattached hown hregistry =>
      simp only [Request.within, Theme.colorWithin, Theme.default?, hown, hregistry,
        Option.bind_none, run_pure]
  | attached hown hregistry _ ih =>
      have hdefault := ih bound hbound
      simp only [Request.within] at hdefault
      simp only [Request.within, Theme.colorWithin, Theme.default?, hown, hregistry,
        Option.bind_some]
      exact hdefault
  | missing hvalue => simp only [Request.within, hvalue, run_pure]
  | resolved hvalue _ ih => simpa only [Request.within, hvalue] using ih bound hbound

/-! ### Every request has a derivation -/

def Finishes (theme : Theme) (request : Request) (meter : Nat) (color : Option Color) : Prop :=
  ∃ nested, theme.Yields request meter color meter nested

/-- The color of a reference when `room` more of them may be opened. -/
def followed (theme : Theme) : Nat → String → Option Color
  | 0, _ => none
  | room + 1, id =>
      match theme.colors[id]? with
      | some color => some color
      | none => (theme.default? id).bind (·.colorIn (theme.followed room))

mutual

/-- A value has a derivation if every reference in it does, and its color is composed from theirs.
All of them are made at the same meter, since each part of the value gives it back. -/
theorem finishes_value {colors : String → Option Color} :
    ∀ value : ColorValue, value.CustomFree →
      (∀ id ∈ value.references, id.toList.head? ≠ some '#' →
        theme.Finishes (.value (.reference id)) meter (colors id)) →
      theme.Finishes (.value value) meter (value.colorIn colors)
  | .literal _, _, _ => ⟨0, .literal⟩
  | .reference id, _, hids => by
      rw [ColorValue.colorIn]
      split
      next hid => exact ⟨0, .written hid⟩
      next hid => exact hids id (by simp [ColorValue.references, hid]) hid
  | .darken value _, hfree, hids => by
      obtain ⟨nested, hvalue⟩ := finishes_value value hfree hids
      exact ⟨nested, .darken hvalue⟩
  | .lighten value _, hfree, hids => by
      obtain ⟨nested, hvalue⟩ := finishes_value value hfree hids
      exact ⟨nested, .lighten hvalue⟩
  | .transparent value _, hfree, hids => by
      obtain ⟨nested, hvalue⟩ := finishes_value value hfree hids
      exact ⟨nested, .transparent hvalue⟩
  | .oneOf values, hfree, hids => by
      obtain ⟨nested, hvalues⟩ := finishes_firstOf values hfree hids
      exact ⟨nested, .oneOf hvalues⟩
  | .lessProminent value background _ _, hfree, hids => by
      obtain ⟨nested, hvalue⟩ := finishes_value value hfree.1 fun id hmem =>
        hids id (List.mem_append_left _ hmem)
      obtain ⟨nested', hbackground⟩ := finishes_value background hfree.2 fun id hmem =>
        hids id (List.mem_append_right _ hmem)
      rw [ColorValue.colorIn]
      cases hcolor : value.colorIn colors with
      | none => exact ⟨nested, .lost (hcolor ▸ hvalue)⟩
      | some color => exact ⟨_, .moved (hcolor ▸ hvalue) hbackground⟩
  | .custom _, hfree, _ => hfree.elim

theorem finishes_firstOf {colors : String → Option Color} :
    ∀ values : List ColorValue, ColorValue.AllCustomFree values →
      (∀ id ∈ ColorValue.referencesOfAll values, id.toList.head? ≠ some '#' →
        theme.Finishes (.value (.reference id)) meter (colors id)) →
      theme.Finishes (.firstOf values) meter (ColorValue.firstIn colors values)
  | [], _, _ => ⟨0, .exhausted⟩
  | value :: rest, hfree, hids => by
      obtain ⟨nested, hvalue⟩ := finishes_value value hfree.1 fun id hmem =>
        hids id (List.mem_append_left _ hmem)
      obtain ⟨nested', hrest⟩ := finishes_firstOf rest hfree.2 fun id hmem =>
        hids id (List.mem_append_right _ hmem)
      rw [ColorValue.firstIn]
      cases hcolor : value.colorIn colors with
      | none => exact ⟨_, .skipped (hcolor ▸ hvalue) hrest⟩
      | some color => exact ⟨nested, .found (hcolor ▸ hvalue)⟩

end

/-- References in the defaults of these identifiers lead to none but these identifiers, and the
defaults are without custom computations. Those of identifiers that the theme defines do not
count. -/
def Encloses (theme : Theme) (ids : String → Prop) : Prop :=
  ∀ id value, ids id → theme.colors[id]? = none → theme.default? id = some value →
    value.CustomFree ∧ ∀ next ∈ value.references, ids next

theorem CustomFree.encloses (htheme : theme.CustomFree) : theme.Encloses fun _ => True :=
  fun id value _ _ hvalue => ⟨htheme id value hvalue, fun _ _ => trivial⟩

variable {ids : String → Prop}

/-- An identifier has a derivation if every reference in its default does. -/
theorem finishes_color (htheme : theme.Encloses ids) {room : Nat}
    (hids : ∀ id : String, ids id → id.toList.head? ≠ some '#' →
      theme.Finishes (.value (.reference id)) meter (theme.followed room id)) (id : String)
    (hmem : ids id) :
    theme.Finishes (.color id) meter (theme.followed (room + 1) id) := by
  rw [followed]
  cases hown : theme.colors[id]? with
  | some color => exact ⟨0, .own hown⟩
  | none =>
      cases hregistry : theme.registry with
      | none =>
          rw [default?, hregistry]
          exact ⟨0, .unattached hown hregistry⟩
      | some registry =>
          have hdefault := default?_eq hregistry id
          cases hvalue : registry.default? theme.kind id with
          | none =>
              rw [hdefault, hvalue]
              exact ⟨0, .attached hown hregistry (.missing hvalue)⟩
          | some value =>
              obtain ⟨hfree, hclosed⟩ := htheme id value hmem hown (hdefault.trans hvalue)
              obtain ⟨nested, hcolor⟩ := finishes_value value hfree fun next hnext =>
                hids next (hclosed next hnext)
              rw [hdefault, hvalue]
              exact ⟨nested, .attached hown hregistry (.resolved hvalue hcolor)⟩

/-- A reference has a derivation, by induction on the room that the meter leaves: with room, the
references in the default of the identifier have less of it. -/
theorem finishes_reference (htheme : theme.Encloses ids) (meter : Nat) (id : String)
    (hmem : ids id) (hid : id.toList.head? ≠ some '#') :
    theme.Finishes (.value (.reference id)) meter
      (theme.followed (maxReferences - meter) id) := by
  induction hroom : maxReferences - meter generalizing meter id with
  | zero => exact ⟨0, .refused hid (by omega)⟩
  | succ room ih =>
      obtain ⟨nested, hcolor⟩ := finishes_color htheme
        (fun next hnext hnextid => ih (meter + 1) next hnext hnextid (by omega)) id hmem
      exact ⟨nested + 1, .followed hid (by omega) hcolor⟩

theorem exists_finishes (hfree : request.CustomFree theme) (meter : Nat) :
    ∃ color, theme.Finishes request meter color := by
  obtain ⟨htheme, hfree⟩ := hfree
  have hids := finishes_reference htheme.encloses meter
  cases request with
  | value value => exact ⟨_, finishes_value value hfree fun id _ => hids id trivial⟩
  | firstOf values => exact ⟨_, finishes_firstOf values hfree fun id _ => hids id trivial⟩
  | color id => exact ⟨_, finishes_color htheme.encloses hids id trivial⟩
  | default registry id =>
      cases hvalue : registry.default? theme.kind id with
      | none => exact ⟨none, 0, .missing hvalue⟩
      | some value =>
          obtain ⟨nested, hcolor⟩ := finishes_value value (hfree id value hvalue) fun id _ =>
            hids id trivial
          exact ⟨_, nested, .resolved hvalue hcolor⟩

end Theme

/-! ### The meter afterwards -/

open Metered Theme

variable {theme : Theme} {request : Request} {meter : Nat}

/-- What has a derivation is what the request gives, whatever bound it is made with. -/
theorem Theme.Yields.run_ask {color : Option Color} {after nested : Nat}
    (h : theme.Yields request meter color after nested) :
    (request.ask theme).run meter = (color, after) := by
  obtain ⟨bound, hbound, hask⟩ := request.ask_eq_within theme
  have hnested := h.bounds.2
  rw [hask]
  exact h.run bound (by omega)

/-- What a value gives, as a composition of what its references give in the room left by the
meter. Nothing is asked of identifiers but those that enclose the references. -/
theorem Theme.run_resolve_of_encloses {ids : String → Prop} (htheme : theme.Encloses ids)
    {value : ColorValue} (hvalue : value.CustomFree) (hmem : ∀ id ∈ value.references, ids id)
    (meter : Nat) :
    (value.resolve theme.view).run meter =
      (value.colorIn (theme.followed (maxReferences - meter)), meter) := by
  obtain ⟨nested, h⟩ := finishes_value value hvalue fun id hid =>
    finishes_reference htheme meter id (hmem id hid)
  exact h.run_ask

theorem Theme.run_resolve (htheme : theme.CustomFree) {value : ColorValue}
    (hvalue : value.CustomFree) (meter : Nat) :
    (value.resolve theme.view).run meter =
      (value.colorIn (theme.followed (maxReferences - meter)), meter) :=
  run_resolve_of_encloses htheme.encloses hvalue (fun _ _ => trivial) meter

/-- What an identifier gives, which opens no reference itself. -/
theorem Theme.run_color_of_encloses {ids : String → Prop} (htheme : theme.Encloses ids)
    {id : String} (hmem : ids id) (meter : Nat) :
    (theme.view.color id).run meter =
      (theme.followed (maxReferences - meter + 1) id, meter) := by
  obtain ⟨nested, h⟩ := finishes_color htheme (finishes_reference htheme meter) id hmem
  exact h.run_ask

theorem Theme.run_color (htheme : theme.CustomFree) (id : String) (meter : Nat) :
    (theme.view.color id).run meter =
      (theme.followed (maxReferences - meter + 1) id, meter) :=
  run_color_of_encloses htheme.encloses trivial meter

theorem Request.run_ask_snd (hfree : request.CustomFree theme) (meter : Nat) :
    ((request.ask theme).run meter).2 = meter := by
  obtain ⟨color, nested, h⟩ := exists_finishes hfree meter
  rw [h.run_ask]

/-- Makes requests one after the other, each of its theme. -/
def askAll : List (Theme × Request) → Metered Unit
  | [] => pure ()
  | (theme, request) :: rest => do
      let _ ← request.ask theme
      askAll rest

theorem run_askAll {jobs : List (Theme × Request)}
    (hfree : ∀ job ∈ jobs, job.2.CustomFree job.1) (meter : Nat) :
    (askAll jobs).run meter = ((), meter) := by
  induction jobs with
  | nil => rfl
  | cons job rest ih =>
      have hjob := Request.run_ask_snd (hfree job List.mem_cons_self) meter
      rw [askAll, run_bind, hjob]
      exact ih fun later hmem => hfree later (List.mem_cons_of_mem job hmem)

/-- **Resolution ends and gives back the meter.** A request without custom computations has a
derivation. Whatever derivation it has is what the program computes, gives back the meter, and has
no more look-ups inside of one another than the meter leaves room for. So computations that come
after any number of requests do not notice them. -/
theorem resolution_ends (hfree : request.CustomFree theme) (meter : Nat) :
    (∃ color nested, theme.Yields request meter color meter nested) ∧
      (∀ color after nested, theme.Yields request meter color after nested →
        (request.ask theme).run meter = (color, after) ∧ after = meter ∧
          nested ≤ maxReferences - meter) ∧
      ∀ {α : Type} (earlier : List (Theme × Request)) (later : Metered α),
        (∀ job ∈ earlier, job.2.CustomFree job.1) →
          (do askAll earlier; later).run meter = later.run meter := by
  refine ⟨?_, ?_, ?_⟩
  · obtain ⟨color, nested, h⟩ := exists_finishes hfree meter
    exact ⟨color, nested, h⟩
  · intro color after nested h
    exact ⟨h.run_ask, h.bounds⟩
  · intro α earlier later hearlier
    rw [run_bind, run_askAll hearlier]

/-- Two defaults that refer to each other, one of them through a choice whose first two branches
lead nowhere. -/
theorem resolution_ends_cyclic :
    let registry := ColorRegistry.empty.insertAll
      [{ id := "a", description := "",
         defaults := .all (.oneOf [.reference "b", .reference "gone", .literal .black]) },
       { id := "b", description := "", defaults := .all (.darken (.reference "a") 0.5) }]
    let theme : Theme := { registry := some registry }
    let request : Request := .value (.reference "a")
    request.CustomFree theme ∧
      (∃ color nested, theme.Yields request 3 color 3 nested ∧ nested ≤ 61) ∧
      (do askAll [(theme, request)]; request.ask theme).run 3 = (request.ask theme).run 3 := by
  intro registry theme request
  have hfree : request.CustomFree theme := by
    refine ⟨fun id value hvalue => ?_, trivial⟩
    have hregistry : registry.CustomFree .dark := by
      refine (ColorRegistry.CustomFree.empty.insert ?_).insert ?_ <;>
        simp [ColorDefaults.get, ColorDefaults.all, ColorValue.CustomFree,
          ColorValue.AllCustomFree]
    exact hregistry id value hvalue
  obtain ⟨⟨color, nested, h⟩, hbounds, hlater⟩ := resolution_ends hfree 3
  refine ⟨hfree, ⟨color, nested, h, (hbounds _ _ _ h).2.2⟩, hlater _ _ ?_⟩
  intro job hjob
  obtain rfl := List.mem_singleton.mp hjob
  exact hfree

end Highlight
