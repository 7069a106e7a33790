import Highlight.Proofs.Registry.Listing
import Highlight.Proofs.Value.Termination

/-!
# What a value does not lead to does not matter

Resolving a value leads to the identifiers that it refers to, from those that the theme does not
define on to the identifiers in their defaults, and so on. These are the identifiers that the value
reaches (`Theme.Reaches`), whichever of them are looked up in the end: branches of a choice that are
not taken count, and so does what lies behind more references than may be open.

Themes that agree on what a value reaches (`Theme.AgreeOn`) give it the same color, because the
reached identifiers lead to none but themselves. Changes of a theme and its registry that spare what
a value reaches keep the themes in agreement (`Theme.AgreeOn.perform`). Elsewhere anything may
stand, also defaults with custom computations: nobody asks for it.
-/

namespace Highlight

/-! ### Changes of a theme -/

/-- A change of a theme or of the registry that it is attached to. -/
inductive ThemeChange where
  | registry (call : RegistryCall)
  | define (id : String) (color : Color)

namespace ThemeChange

/-- Makes a change. -/
def perform (theme : Theme) : ThemeChange → Theme
  | registry call => { theme with registry := theme.registry.map (RegistryCall.perform · call) }
  | define id color => theme.withColor id color

/-- A change leaves alone what identifiers stand for in a theme: none of them is removed or gets a
color, and whoever registers one of them again keeps its default for the kind of the theme. -/
def Spares (theme : Theme) (ids : String → Prop) : ThemeChange → Prop
  | registry (.register contribution) =>
      ids contribution.id → contribution.defaults.get theme.kind = theme.default? contribution.id
  | registry (.deregister id) => ¬ ids id
  | define id _ => ¬ ids id

end ThemeChange

theorem ColorRegistry.default?_erase (registry : ColorRegistry) (id : String) (kind : ThemeKind)
    (other : String) :
    (registry.erase id).default? kind other =
      if id = other then none else registry.default? kind other := by
  rw [default?, get?_erase, default?]
  split
  · rfl
  · rfl

namespace Theme

/-! ### Reached identifiers -/

/-- The identifiers that a value leads to: those in the value, and with every identifier that the
theme does not define those in its default. -/
inductive Reaches (theme : Theme) (value : ColorValue) : String → Prop where
  | here {id} (hmem : id ∈ value.references) : Reaches theme value id
  | behind {id default next} (hid : Reaches theme value id) (hown : theme.colors[id]? = none)
      (hdefault : theme.default? id = some default) (hmem : next ∈ default.references) :
      Reaches theme value next

/-- The themes are of one kind, and identifiers have the same colors and defaults in both. -/
structure AgreeOn (ids : String → Prop) (theme other : Theme) : Prop where
  kind : other.kind = theme.kind
  colors : ∀ id : String, ids id → other.colors[id]? = theme.colors[id]?
  default? : ∀ id, ids id → other.default? id = theme.default? id

variable {theme other : Theme} {value : ColorValue} {ids : String → Prop} {id : String}

/-- No other identifiers are reached than those of any set that holds the references of the value
and encloses itself. -/
theorem Reaches.of_encloses (htheme : theme.Encloses ids) (hvalue : ∀ id ∈ value.references, ids id)
    (h : theme.Reaches value id) : ids id := by
  induction h with
  | here hmem => exact hvalue _ hmem
  | behind _ hown hdefault hmem ih => exact (htheme _ _ ih hown hdefault).2 _ hmem

/-- The reached identifiers lead to none but themselves. -/
theorem encloses_reaches
    (hfree : ∀ id default, theme.Reaches value id → theme.colors[id]? = none →
      theme.default? id = some default → default.CustomFree) :
    theme.Encloses (theme.Reaches value) :=
  fun id default hid hown hdefault =>
    ⟨hfree id default hid hown hdefault, fun _ hmem => .behind hid hown hdefault hmem⟩

/-! ### Themes in agreement -/

namespace AgreeOn

theorem refl (ids : String → Prop) (theme : Theme) : AgreeOn ids theme theme :=
  ⟨rfl, fun _ _ => rfl, fun _ _ => rfl⟩

/-- A theme stays in agreement with another one by changes that spare its identifiers. -/
theorem perform (h : AgreeOn ids theme other) {change : ThemeChange}
    (hspares : change.Spares theme ids) : AgreeOn ids theme (change.perform other) := by
  cases change with
  | define defined color =>
      refine ⟨h.kind, fun id hid => ?_, h.default?⟩
      have hne : defined ≠ id := fun heq => hspares (heq ▸ hid)
      simpa [ThemeChange.perform, withColor, Std.HashMap.getElem?_insert, hne] using h.colors id hid
  | registry call =>
      refine ⟨h.kind, h.colors, fun id hid => ?_⟩
      have hbefore := h.default? id hid
      cases hregistry : other.registry with
      | none =>
          -- nothing is registered anywhere
          rw [← hbefore, Theme.default?, Theme.default?, ThemeChange.perform, hregistry]
          rfl
      | some registry =>
          rw [default?_eq hregistry, h.kind] at hbefore
          have hafter : (ThemeChange.perform other (.registry call)).registry =
              some (call.perform registry) := by
            rw [ThemeChange.perform, hregistry, Option.map_some]
          have hkind : (ThemeChange.perform other (.registry call)).kind = theme.kind := h.kind
          rw [default?_eq hafter, hkind]
          cases call with
          | register contribution =>
              rw [RegistryCall.perform, ColorRegistry.default?_insert]
              split
              · next heq =>
                  subst heq
                  exact hspares hid
              · exact hbefore
          | deregister removed =>
              have hne : removed ≠ id := fun heq => hspares (heq ▸ hid)
              rw [RegistryCall.perform, ColorRegistry.default?_erase, if_neg hne]
              exact hbefore

theorem foldl_perform (h : AgreeOn ids theme other) {changes : List ThemeChange}
    (hspares : ∀ change ∈ changes, change.Spares theme ids) :
    AgreeOn ids theme (changes.foldl ThemeChange.perform other) := by
  induction changes generalizing other with
  | nil => exact h
  | cons change changes ih =>
      obtain ⟨hchange, hchanges⟩ := List.forall_mem_cons.mp hspares
      exact ih (h.perform hchange) hchanges

/-- What a value reaches is the same for themes that agree on it. -/
theorem reaches_iff (h : AgreeOn (theme.Reaches value) theme other) (id : String) :
    other.Reaches value id ↔ theme.Reaches value id := by
  constructor
  · intro hid
    induction hid with
    | here hmem => exact .here hmem
    | behind _ hown hdefault hmem ih =>
        rw [h.colors _ ih] at hown
        rw [h.default? _ ih] at hdefault
        exact .behind ih hown hdefault hmem
  · intro hid
    induction hid with
    | here hmem => exact .here hmem
    | behind hreached hown hdefault hmem ih =>
        rw [← h.colors _ hreached] at hown
        rw [← h.default? _ hreached] at hdefault
        exact .behind ih hown hdefault hmem

theorem encloses (h : AgreeOn ids theme other) (htheme : theme.Encloses ids) :
    other.Encloses ids := by
  intro id default hid hown hdefault
  rw [h.colors id hid] at hown
  rw [h.default? id hid] at hdefault
  exact htheme id default hid hown hdefault

/-- References to enclosed identifiers give the same colors, by induction on how many more of them
may be opened: what stands behind an enclosed identifier is enclosed as well. -/
theorem followed_eq (h : AgreeOn ids theme other) (htheme : theme.Encloses ids) (room : Nat) :
    ∀ id, ids id → other.followed room id = theme.followed room id := by
  induction room with
  | zero => exact fun _ _ => rfl
  | succ room ih =>
      intro id hid
      rw [followed, followed, h.colors id hid, h.default? id hid]
      cases hown : theme.colors[id]? with
      | some color => rfl
      | none =>
          cases hdefault : theme.default? id with
          | none => rfl
          | some default =>
              obtain ⟨-, hclosed⟩ := htheme id default hid hown hdefault
              exact ColorValue.colorIn_congr fun next hnext => ih next (hclosed next hnext)

end AgreeOn

/-! ### The main result -/

/-- **Resolution is local.** Let neither a value nor any default that it leads to have a custom
computation. Then changes that spare what the value reaches, of whatever number and in whatever
order, leave that set and the color of the value as they are, from every start of the meter. -/
theorem run_resolve_of_spares (hvalue : value.CustomFree)
    (hfree : ∀ id default, theme.Reaches value id → theme.colors[id]? = none →
      theme.default? id = some default → default.CustomFree)
    {changes : List ThemeChange}
    (hspares : ∀ change ∈ changes, change.Spares theme (theme.Reaches value)) :
    let changed := changes.foldl ThemeChange.perform theme
    (∀ id, changed.Reaches value id ↔ theme.Reaches value id) ∧
      ∀ meter, (value.resolve changed.view).run meter = (value.resolve theme.view).run meter := by
  intro changed
  have hagree : AgreeOn (theme.Reaches value) theme changed :=
    (AgreeOn.refl _ theme).foldl_perform hspares
  have htheme := encloses_reaches hfree
  have hhere : ∀ id ∈ value.references, theme.Reaches value id := fun _ => .here
  refine ⟨hagree.reaches_iff, fun meter => ?_⟩
  rw [run_resolve_of_encloses htheme hvalue hhere,
    run_resolve_of_encloses (hagree.encloses htheme) hvalue hhere,
    ColorValue.colorIn_congr fun id hmem => hagree.followed_eq htheme _ id (hhere id hmem)]

/-- Two defaults that refer to each other, one of them through a choice. What is changed is a custom
computation that nothing leads to, the default of one of the two for other kinds of themes, and an
identifier that was not there. A further custom computation is hidden by a color of the theme. -/
theorem run_resolve_of_spares_cycle :
    let entry (id : String) (defaults : ColorDefaults) : Contribution :=
      { id, description := "", defaults }
    let hidden : ColorValue := .custom fun view => view.color "a"
    let back : ColorValue := .darken (.reference "a") 0.5
    let registry := ColorRegistry.empty.insertAll
      [entry "a" (.all (.oneOf [.reference "b", .reference "own"])), entry "b" (.all back),
        entry "own" (.all hidden), entry "far" (.all hidden)]
    let theme := (({} : Theme).attach registry).withColor "own" .white
    let value : ColorValue := .lessProminent (.reference "a") (.reference "#fff") 0.5 0.25
    let changes : List ThemeChange :=
      [.registry (.register (entry "far" (.all (.reference "a")))),
        .registry (.register (entry "b" ⟨some back, some hidden, none⟩)),
        .define "new" .black, .registry (.deregister "far")]
    value.CustomFree ∧
      (∀ id default, theme.Reaches value id → theme.colors[id]? = none →
        theme.default? id = some default → default.CustomFree) ∧
      (∀ change ∈ changes, change.Spares theme (theme.Reaches value)) ∧
      theme.Reaches value "own" ∧ ¬ theme.Reaches value "far" ∧
      (value.resolve (changes.foldl ThemeChange.perform theme).view).run 60 =
        (value.resolve theme.view).run 60 := by
  intro entry hidden back registry theme value changes
  have hown : ∀ id : String, theme.colors[id]? = if "own" = id then some .white else none := by
    intro id
    simp [theme, withColor, attach, Std.HashMap.getElem?_insert]
  have hdefault : ∀ id, theme.default? id =
      if "far" = id then some hidden else if "own" = id then some hidden
      else if "b" = id then some back
      else if "a" = id then some (.oneOf [.reference "b", .reference "own"]) else none := by
    intro id
    simp [theme, withColor, attach, registry, entry, Theme.default?, ColorRegistry.insertAll,
      ColorRegistry.default?_insert, ColorRegistry.default?_empty, ColorDefaults.all,
      ColorDefaults.get]
  have hencloses : theme.Encloses (· ∈ ["a", "b", "own"]) := by
    intro id default hid hmissing hvalue
    rw [hown] at hmissing
    rw [hdefault] at hvalue
    grind [ColorValue.CustomFree, ColorValue.AllCustomFree, ColorValue.references,
      ColorValue.referencesOfAll]
  have hvalue : value.CustomFree := ⟨trivial, trivial⟩
  have hreached : ∀ id, theme.Reaches value id → id ∈ ["a", "b", "own"] := fun id hid =>
    hid.of_encloses hencloses (by simp [value, ColorValue.references])
  have hfree : ∀ id default, theme.Reaches value id → theme.colors[id]? = none →
      theme.default? id = some default → default.CustomFree :=
    fun id default hid hmissing hdefault =>
      (hencloses id default (hreached id hid) hmissing hdefault).1
  have hfar : ¬ theme.Reaches value "far" := fun hid => by simpa using hreached "far" hid
  have hspares : ∀ change ∈ changes, change.Spares theme (theme.Reaches value) := by
    intro change hchange
    simp only [changes, List.mem_cons, List.not_mem_nil, or_false] at hchange
    rcases hchange with rfl | rfl | rfl | rfl
    · exact fun hid => absurd hid hfar
    · exact fun _ => (hdefault "b").symm
    · exact fun hid => by simpa using hreached "new" hid
    · exact hfar
  have ha : theme.Reaches value "a" := .here (by simp [value, ColorValue.references])
  have hreachesown : theme.Reaches value "own" :=
    .behind ha (by simp [hown]) (hdefault "a")
      (by simp [ColorValue.references, ColorValue.referencesOfAll])
  exact ⟨hvalue, hfree, hspares, hreachesown, hfar,
    (run_resolve_of_spares hvalue hfree hspares).2 60⟩

end Theme

end Highlight
