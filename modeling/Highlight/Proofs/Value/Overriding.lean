import Highlight.Proofs.Value.Termination

/-!
# Colors of a theme as defaults

A color that a theme defines counts like a literal that its registry has as a default: either is
found by every reference that may still be opened, and opens no further one. So a theme has one
value for an identifier, its own color as a literal or else the default (`Theme.source?`), and what
references give depends on these values alone (`followed_congr`). Defining a color and registering
it as a default put the same value there.
-/

namespace Highlight

theorem ColorDefaults.get_all (value : ColorValue) (kind : ThemeKind) :
    (ColorDefaults.all value).get kind = some value := by
  cases kind <;> rfl

namespace Theme

variable {theme other : Theme}

/-! ### Sources -/

/-- The value that an identifier stands for in a theme. -/
def source? (theme : Theme) (id : String) : Option ColorValue :=
  (theme.colors[id]?.map .literal).or (theme.default? id)

theorem followed_succ (theme : Theme) (room : Nat) (id : String) :
    theme.followed (room + 1) id =
      (theme.source? id).bind (·.colorIn (theme.followed room)) := by
  rw [followed, source?]
  cases theme.colors[id]? with
  | some color => rfl
  | none => rfl

/-- With the same sources references give the same colors, in whatever room there is for more of
them. -/
theorem followed_congr (hsource : ∀ id, theme.source? id = other.source? id) (room : Nat) :
    theme.followed room = other.followed room := by
  induction room with
  | zero => rfl
  | succ room ih =>
      funext id
      rw [followed_succ, followed_succ, hsource, ih]

theorem run_resolve_congr (htheme : theme.CustomFree) (hother : other.CustomFree)
    (hsource : ∀ id, theme.source? id = other.source? id) {value : ColorValue}
    (hvalue : value.CustomFree) (meter : Nat) :
    (value.resolve theme.view).run meter = (value.resolve other.view).run meter := by
  rw [run_resolve htheme hvalue, run_resolve hother hvalue, followed_congr hsource]

theorem run_color_congr (htheme : theme.CustomFree) (hother : other.CustomFree)
    (hsource : ∀ id, theme.source? id = other.source? id) (id : String) (meter : Nat) :
    (theme.view.color id).run meter = (other.view.color id).run meter := by
  rw [run_color htheme, run_color hother, followed_congr hsource]

/-! ### Defining and registering -/

theorem source?_withColor (theme : Theme) (id : String) (color : Color) (asked : String) :
    (theme.withColor id color).source? asked =
      if id = asked then some (.literal color) else theme.source? asked := by
  simp only [source?, withColor, Std.HashMap.getElem?_insert, beq_iff_eq]
  split
  · rfl
  · rfl

/-- A registered default is the source of its identifier if the theme does not define it. -/
theorem source?_attach_insert {registry : ColorRegistry}
    (hregistry : theme.registry = some registry) {contribution : Contribution}
    (hown : theme.colors[contribution.id]? = none) (asked : String) :
    (theme.attach (registry.insert contribution)).source? asked =
      if contribution.id = asked then contribution.defaults.get theme.kind
      else theme.source? asked := by
  have hafter : (theme.attach (registry.insert contribution)).default? asked =
      if contribution.id = asked then contribution.defaults.get theme.kind
      else theme.default? asked := by
    rw [default?_eq hregistry]
    exact registry.default?_insert contribution theme.kind asked
  rw [source?, source?, hafter, attach]
  split
  · next hid =>
      rw [← hid, hown]
      rfl
  · rfl

/-- **A color of a theme is an overriding default.** Let a theme be attached to a registry and not
define an identifier. Whether the theme defines a color for it, or the registry gets that color as
its default for all kinds of themes, every value and every identifier has the same color from every
start of the meter, and leaves the meter the same. -/
theorem withColor_eq_insert {registry : ColorRegistry} (hregistry : theme.registry = some registry)
    (hfree : registry.CustomFree theme.kind) {id : String} (hown : theme.defines id = false)
    (color : Color) (contribution : Contribution) (hid : contribution.id = id)
    (hdefaults : contribution.defaults = .all (.literal color)) (meter : Nat) :
    let defined := theme.withColor id color
    let registered := theme.attach (registry.insert contribution)
    (∀ value : ColorValue, value.CustomFree →
        (value.resolve defined.view).run meter = (value.resolve registered.view).run meter) ∧
      ∀ asked, (defined.view.color asked).run meter = (registered.view.color asked).run meter := by
  intro defined registered
  subst hid
  have hmissing : theme.colors[contribution.id]? = none := by
    rw [defines, Std.HashMap.contains_eq_isSome_getElem?] at hown
    simpa using hown
  have hget : contribution.defaults.get theme.kind = some (.literal color) := by
    rw [hdefaults, ColorDefaults.get_all]
  have hsource : ∀ asked, defined.source? asked = registered.source? asked := by
    intro asked
    rw [source?_withColor, source?_attach_insert hregistry hmissing, hget]
  have hdefined : defined.CustomFree := by
    intro asked value hvalue
    have hattached : defined.registry = some registry := hregistry
    rw [default?_eq hattached] at hvalue
    exact hfree asked value hvalue
  have hregistered : registered.CustomFree := by
    refine hfree.insert fun value hvalue => ?_
    obtain rfl := Option.some.inj (hget.symm.trans hvalue)
    trivial
  exact ⟨fun value hvalue => run_resolve_congr hdefined hregistered hsource hvalue meter,
    fun asked => run_color_congr hdefined hregistered hsource asked meter⟩

/-- Two defaults that refer to each other, the second of which is overridden. The first reference of
the value is the last but one that may be opened. -/
theorem withColor_eq_insert_cycle :
    let registry := ColorRegistry.empty.insertAll
      [{ id := "a", description := "", defaults := .all (.darken (.reference "x") 0.5) },
       { id := "x", description := "", defaults := .all (.reference "a") }]
    let theme : Theme := ({} : Theme).attach registry
    let contribution : Contribution :=
      { id := "x", description := "", defaults := .all (.literal .black) }
    let defined := theme.withColor "x" .black
    let registered := theme.attach (registry.insert contribution)
    let value : ColorValue := .lessProminent (.reference "a") (.reference "x") 0.5 0.25
    theme.registry = some registry ∧ registry.CustomFree theme.kind ∧ theme.defines "x" = false ∧
      contribution.id = "x" ∧ contribution.defaults = .all (.literal .black) ∧ value.CustomFree ∧
      (value.resolve defined.view).run 62 = (value.resolve registered.view).run 62 ∧
      (defined.view.color "a").run 63 = (registered.view.color "a").run 63 := by
  intro registry theme contribution defined registered value
  have hfree : registry.CustomFree theme.kind := by
    refine (ColorRegistry.CustomFree.empty.insert ?_).insert ?_ <;>
      simp [ColorDefaults.get_all, ColorValue.CustomFree]
  have hown : theme.defines "x" = false := by simp [theme, attach, defines]
  have hvalue : value.CustomFree := ⟨trivial, trivial⟩
  obtain ⟨hresolve, -⟩ := withColor_eq_insert rfl hfree hown .black contribution rfl rfl 62
  obtain ⟨-, hcolor⟩ := withColor_eq_insert rfl hfree hown .black contribution rfl rfl 63
  exact ⟨rfl, hfree, hown, rfl, rfl, hvalue, hresolve value hvalue, hcolor "a"⟩

end Theme

end Highlight
