import Highlight.Proofs.Registry.Repeating
import Highlight.Proofs.Value.Locality
import Highlight.Registry.Standard

/-!
# Standard colors are self-contained

The defaults of the standard colors refer to standard colors only, and fewer than three references
stand inside of one another wherever one starts (`Grounded`). Whoever registers them therefore gets
colors that do not depend on what else a registry holds or held, even if that refers to standard
colors, to itself or to nothing: registering replaces what was there under a standard identifier,
and nothing else is ever asked for (`Theme.Offers`). What remains is the theme, by its kind and by
the standard colors that it defines itself.

Derivations tell how deep references stand inside of one another. A bound for it follows by
induction on the derivation: a reference leads to an identifier of less depth.
-/

namespace Highlight

/-! ### Contributions that refer to each other only -/

/-- The values for all kinds of themes. -/
def ColorDefaults.values (defaults : ColorDefaults) : List ColorValue :=
  [defaults.dark, defaults.light, defaults.highContrast].filterMap id

theorem ColorDefaults.mem_values {defaults : ColorDefaults} {kind : ThemeKind} {value : ColorValue}
    (h : defaults.get kind = some value) : value ∈ defaults.values := by
  cases kind <;> simp_all [ColorDefaults.get, ColorDefaults.values]

/-- Starting at an identifier, the defaults lead to none but the contributions, and fewer than so
many references stand inside of one another. -/
def Grounded (colors : List Contribution) : Nat → String → Prop
  | 0, _ => False
  | depth + 1, id =>
      ∃ color ∈ colors, color.id = id ∧
        ∀ value ∈ color.defaults.values, ∀ next ∈ value.references, Grounded colors depth next

instance Grounded.decidable (colors : List Contribution) :
    (depth : Nat) → DecidablePred (Grounded colors depth)
  | 0, _ => inferInstanceAs (Decidable False)
  | depth + 1, id =>
      have := Grounded.decidable colors depth
      inferInstanceAs (Decidable (∃ color ∈ colors, color.id = id ∧
        ∀ value ∈ color.defaults.values, ∀ next ∈ value.references, Grounded colors depth next))

/-- The contributions are without custom computations and refer to each other only, with fewer than
so many references inside of one another. -/
structure SelfContained (colors : List Contribution) (depth : Nat) : Prop where
  nodup : (colors.map (·.id)).Nodup
  customFree : ∀ color ∈ colors, ∀ value ∈ color.defaults.values, value.CustomFree
  grounded : ∀ color ∈ colors, Grounded colors depth color.id

namespace StandardColor

/-- The identifiers of the standard colors. -/
def ids : List String := all.map (·.id)

theorem selfContained : SelfContained all 3 where
  nodup := by decide
  customFree := by
    simp [all, base, editor, widgets, buttons, defaults, plainDefaults, contrastDefault, hex, same,
      softSelection, ColorDefaults.all, ColorDefaults.values, ColorValue.CustomFree,
      ColorValue.AllCustomFree]
  grounded := by decide

end StandardColor

variable {colors : List Contribution} {depth : Nat} {id : String}

theorem Grounded.mem (h : Grounded colors depth id) : id ∈ colors.map (·.id) := by
  cases depth with
  | zero => exact h.elim
  | succ depth =>
      obtain ⟨color, hmem, rfl, -⟩ := h
      exact List.mem_map_of_mem hmem

/-! ### Themes that offer them -/

namespace Theme

/-- The defaults of the contributions stand in for colors that the theme does not define. -/
def Offers (theme : Theme) (colors : List Contribution) : Prop :=
  ∀ color ∈ colors, theme.default? color.id = color.defaults.get theme.kind

variable {theme other : Theme}

/-- A theme attached to a registry offers what the registry holds. -/
theorem offers_attach {registry : ColorRegistry} (h : registry.Holds colors) (theme : Theme) :
    (theme.attach registry).Offers colors := by
  intro color hmem
  rw [default?_attach, ColorRegistry.default?, h color hmem]
  rfl

theorem Offers.grounded (h : theme.Offers colors) (hid : Grounded colors (depth + 1) id)
    {value : ColorValue} (hvalue : theme.default? id = some value) :
    ∀ next ∈ value.references, Grounded colors depth next := by
  obtain ⟨color, hmem, rfl, hnext⟩ := hid
  rw [h color hmem] at hvalue
  exact hnext value (ColorDefaults.mem_values hvalue)

theorem Offers.encloses (h : theme.Offers colors) (hself : SelfContained colors depth) :
    theme.Encloses (· ∈ colors.map (·.id)) := by
  intro id value hid _ hvalue
  obtain ⟨color, hmem, rfl⟩ := List.mem_map.mp hid
  have hgrounded := hself.grounded color hmem
  constructor
  · rw [h color hmem] at hvalue
    exact hself.customFree color hmem value (ColorDefaults.mem_values hvalue)
  · cases depth with
    | zero => exact hgrounded.elim
    | succ depth => exact fun next hnext => (h.grounded hgrounded hvalue next hnext).mem

/-- Themes of one kind that define the same of these identifiers alike agree on them. -/
theorem Offers.agreeOn (h : theme.Offers colors) (hother : other.Offers colors)
    (hkind : other.kind = theme.kind)
    (hown : ∀ id ∈ colors.map (·.id), other.colors[id]? = theme.colors[id]?) :
    AgreeOn (· ∈ colors.map (·.id)) theme other := by
  refine ⟨hkind, hown, fun id hid => ?_⟩
  obtain ⟨color, hmem, rfl⟩ := List.mem_map.mp hid
  rw [h color hmem, hother color hmem, hkind]

/-- With enough room for references, more of it does not matter: by induction on how many stand
inside of one another. -/
theorem Offers.followed_eq (h : theme.Offers colors) (hid : Grounded colors depth id) {room : Nat}
    (hroom : depth ≤ room) : theme.followed room id = theme.followed depth id := by
  induction depth generalizing room id with
  | zero => exact hid.elim
  | succ depth ih =>
      obtain ⟨room, rfl⟩ := Nat.exists_eq_succ_of_ne_zero (n := room) (by omega)
      rw [followed, followed]
      cases hown : theme.colors[id]? with
      | some color => rfl
      | none =>
          cases hvalue : theme.default? id with
          | none => rfl
          | some value =>
              exact ColorValue.colorIn_congr fun next hnext =>
                ih (h.grounded hid hvalue next hnext) (Nat.le_of_succ_le_succ hroom)

end Theme

/-! ### How deep references stand -/

/-- Whatever is behind the request has fewer than so many references inside of one another; those of
an identifier stand in its default. -/
def Request.IsGrounded (theme : Theme) (colors : List Contribution) (depth : Nat) : Request → Prop
  | value v => ∀ id ∈ v.references, Grounded colors depth id
  | firstOf values => ∀ id ∈ ColorValue.referencesOfAll values, Grounded colors depth id
  | color id => Grounded colors (depth + 1) id
  | default registry id =>
      ∀ v, registry.default? theme.kind id = some v →
        ∀ next ∈ v.references, Grounded colors depth next

namespace Theme

variable {theme other : Theme} {request : Request} {meter after nested : Nat} {color : Option Color}

/-- No more references stand inside of one another than the depth says. Following one uses up some
of it. -/
theorem Yields.nested_le (htheme : theme.Offers colors)
    (h : theme.Yields request meter color after nested)
    (hrequest : request.IsGrounded theme colors depth) : nested ≤ depth := by
  induction h generalizing depth with
  | literal | written | refused | exhausted | own | unattached | missing => exact Nat.zero_le depth
  | @followed id _ _ _ _ hid _ _ ih =>
      have hnext := hrequest id (by simp [ColorValue.references, hid])
      cases depth with
      | zero => exact hnext.elim
      | succ depth => exact Nat.succ_le_succ (ih hnext)
  | darken _ ih | lighten _ ih | transparent _ ih | oneOf _ ih => exact ih hrequest
  | lost _ ih => exact ih fun id hid => hrequest id (List.mem_append_left _ hid)
  | moved _ _ ihvalue ihbackground =>
      have hvalue := ihvalue fun id hid => hrequest id (List.mem_append_left _ hid)
      have hbackground := ihbackground fun id hid => hrequest id (List.mem_append_right _ hid)
      exact Nat.max_le.mpr ⟨hvalue, hbackground⟩
  | found _ ih => exact ih fun id hid => hrequest id (List.mem_append_left _ hid)
  | skipped _ _ ihvalue ihrest =>
      have hvalue := ihvalue fun id hid => hrequest id (List.mem_append_left _ hid)
      have hrest := ihrest fun id hid => hrequest id (List.mem_append_right _ hid)
      exact Nat.max_le.mpr ⟨hvalue, hrest⟩
  | attached _ hregistry _ ih =>
      refine ih fun value hvalue => ?_
      rw [← default?_eq hregistry] at hvalue
      exact htheme.grounded hrequest hvalue
  | resolved hvalue _ ih => exact ih (hrequest _ hvalue)

/-- Identifiers of self-contained contributions have a derivation from every start of the meter. -/
theorem Offers.exists_yields (h : theme.Offers colors) (hself : SelfContained colors depth)
    (hid : id ∈ colors.map (·.id)) (meter : Nat) :
    ∃ color nested, theme.Yields (.color id) meter color meter nested := by
  obtain ⟨nested, hyields⟩ :=
    finishes_color (h.encloses hself) (finishes_reference (h.encloses hself) meter) id hid
  exact ⟨_, nested, hyields⟩

/-- While there is room for the references, the color does not depend on the meter. -/
theorem Offers.run_color (h : theme.Offers colors) (hself : SelfContained colors depth)
    (hid : id ∈ colors.map (·.id)) (hroom : depth + meter ≤ maxReferences + 1) :
    (theme.view.color id).run meter = (theme.followed depth id, meter) := by
  obtain ⟨color, hmem, rfl⟩ := List.mem_map.mp hid
  rw [run_color_of_encloses (h.encloses hself) hid, h.followed_eq (hself.grounded color hmem)]
  omega

/-- Themes that agree on self-contained contributions give them the same colors. -/
theorem Offers.run_color_congr (h : theme.Offers colors) (hself : SelfContained colors depth)
    (hagree : AgreeOn (· ∈ colors.map (·.id)) theme other) (hid : id ∈ colors.map (·.id))
    (meter : Nat) : (other.view.color id).run meter = (theme.view.color id).run meter := by
  have htheme := h.encloses hself
  rw [run_color_of_encloses htheme hid, run_color_of_encloses (hagree.encloses htheme) hid,
    hagree.followed_eq htheme _ id hid]

/-! ### Themes do not tell registries apart that match -/

variable {registry registry' : ColorRegistry}

theorem colorWithin_attach_congr (h : registry.Matches registry') (theme : Theme) (bound : Nat) :
    (theme.attach registry).colorWithin bound = (theme.attach registry').colorWithin bound := by
  have hdefault (id : String) :
      (theme.attach registry).default? id = (theme.attach registry').default? id := by
    rw [default?_attach, default?_attach, h.default?_eq]
  induction bound with
  | zero => rfl
  | succ bound ih =>
      funext id
      rw [colorWithin, colorWithin, hdefault, ih]
      rfl

theorem view_attach_congr (h : registry.Matches registry') (theme : Theme) :
    (theme.attach registry).view = (theme.attach registry').view := by
  have hbound : (theme.attach registry).questionBound = (theme.attach registry').questionBound := by
    simp only [questionBound, attach, Option.map_some, h.size_eq]
  rw [view, view, hbound, colorWithin_attach_congr h]
  rfl

end Theme

/-! ### Registering the standard colors -/

namespace StandardColor

variable {L W : Type} {react : WatchedRegistry.Reaction L W} {allowed : RegistryCall → Prop}

/-- The colors that a registry has after the standard colors have been registered. -/
def registered (react : WatchedRegistry.Reaction L W) (s : WatchedRegistry L × W) : ColorRegistry :=
  ((register react).run s).2.1.colors

/-- Registering one after the other is a sequence of calls. -/
theorem forM_register (react : WatchedRegistry.Reaction L W) (colors : List Contribution) :
    (colors.forM fun color => do let _ ← WatchedRegistry.register react color) =
      (colors.map RegistryCall.register).forM (RegistryCall.run react) := by
  induction colors with
  | nil => rfl
  | cons color colors ih =>
      exact congrArg (RegistryCall.run react (.register color) >>= fun _ => ·) ih

theorem exists_interleaved_registered
    (hreact : ∀ number listener change, ByCalls allowed (react number listener change))
    (s : WatchedRegistry L × W) :
    ∃ made, Interleaved allowed (all.map .register) made ∧
      registered react s = made.foldl RegistryCall.perform s.1.colors := by
  obtain ⟨made, hmade, hcolors⟩ := colors_forM_run hreact (all.map .register) s
  refine ⟨made, hmade, ?_⟩
  rw [registered, register, forM_register, hcolors]

theorem holds_registered
    (hreact : ∀ number listener change, ByCalls allowed (react number listener change))
    (hallowed : ∀ call, allowed call → call.id ∉ ids) (s : WatchedRegistry L × W) :
    (registered react s).Holds all := by
  obtain ⟨made, hmade, hcolors⟩ := exists_interleaved_registered hreact s
  rw [hcolors]
  exact ColorRegistry.holds_foldl_of_interleaved hallowed hmade selfContained.nodup s.1.colors

/-! ### The main result -/

/-- **Standard colors are self-contained.** Let the standard colors be registered in a registry that
held any colors before, with listeners that leave standard identifiers alone. In every theme
attached to it, each of these identifiers has a derivation, none has more than two references inside
of one another, and so the bound on references plays no part unless nearly all of them are open
already. The colors depend on the kind of the theme and on the standard colors that it defines
itself, not on the registry. Registering them again leaves nothing behind but the calls of the
listeners: without these, it changes neither the list of colors nor what any theme sees. -/
theorem registered_selfContained
    (hreact : ∀ number listener change, ByCalls allowed (react number listener change))
    (hallowed : ∀ call, allowed call → call.id ∉ ids) (s : WatchedRegistry L × W) :
    let once := registered react s
    (∀ (theme : Theme), ∀ id ∈ ids, ∀ meter,
      let attached := theme.attach once
      (∃ color nested, attached.Yields (.color id) meter color meter nested ∧
        (attached.view.color id).run meter = (color, meter)) ∧
      (∀ color after nested, attached.Yields (.color id) meter color after nested → nested ≤ 2) ∧
      (meter + 2 ≤ maxReferences →
        (attached.view.color id).run meter = (attached.color? id, meter))) ∧
    (∀ (s' : WatchedRegistry L × W) (theme theme' : Theme), theme'.kind = theme.kind →
      (∀ id ∈ ids, theme'.colors[id]? = theme.colors[id]?) →
        ∀ id ∈ ids, ∀ meter,
          ((theme'.attach (registered react s')).view.color id).run meter =
            ((theme.attach once).view.color id).run meter) ∧
    ∃ byListeners : List RegistryCall, (∀ call ∈ byListeners, allowed call) ∧
      ((∀ call, ¬ allowed call) → byListeners = []) ∧
      let again := registered react ((register react).run s).2
      let left := byListeners.foldl RegistryCall.perform once
      again.toList = left.toList ∧
        (∀ kind id, again.default? kind id = left.default? kind id) ∧
        ∀ theme : Theme, (theme.attach again).view = (theme.attach left).view := by
  intro once
  have hheld (s' : WatchedRegistry L × W) : (registered react s').Holds all :=
    holds_registered hreact hallowed s'
  have hoffers (theme : Theme) (s' : WatchedRegistry L × W) :
      (theme.attach (registered react s')).Offers all :=
    Theme.offers_attach (hheld s') theme
  refine ⟨fun theme id hid meter => ⟨?_, fun color after nested hyields => ?_, fun hroom => ?_⟩,
    fun s' theme theme' hkind hown id hid meter => ?_, ?_⟩
  · obtain ⟨color, nested, hyields⟩ := (hoffers theme s).exists_yields selfContained hid meter
    exact ⟨color, nested, hyields, hyields.run_ask⟩
  · obtain ⟨color, hmem, rfl⟩ := List.mem_map.mp hid
    exact hyields.nested_le (hoffers theme s) (selfContained.grounded color hmem)
  · have hcolor : (theme.attach once).color? id = (theme.attach once).followed 3 id :=
      congrArg Prod.fst ((hoffers theme s).run_color selfContained hid (by decide))
    rw [hcolor, (hoffers theme s).run_color selfContained hid (by omega)]
  · have hagree := (hoffers theme s).agreeOn (hoffers theme' s') hkind hown
    exact (hoffers theme s).run_color_congr selfContained hagree hid meter
  · obtain ⟨made, hmade, hcolors⟩ :=
      exists_interleaved_registered hreact ((register react).run s).2
    obtain ⟨byListeners, hlisteners, hmatches⟩ :=
      (hheld s).exists_matches hallowed (List.Subset.refl all) hmade
    refine ⟨byListeners, hlisteners, fun hsilent => ?_, ?_⟩
    · rw [List.eq_nil_iff_forall_not_mem]
      exact fun call hcall => hsilent call (hlisteners call hcall)
    · rw [hcolors]
      exact ⟨hmatches.toList_eq, hmatches.default?_eq, Theme.view_attach_congr hmatches⟩

/-- A registry in which two standard colors refer to each other and a third one to a custom
computation, against a new one, while a listener counts what it hears of. The theme defines the
color behind two references; another one defines one more color. -/
theorem registered_selfContained_cyclic :
    let entry (id : String) (value : ColorValue) : Contribution :=
      { id, description := "", defaults := .all value }
    let cyclic := ColorRegistry.empty.insertAll
      [entry editorHoverBorder (same editorWidgetBorder),
        entry editorWidgetBorder (same editorHoverBorder),
        entry contrastBorder (.custom fun view => view.color editorHoverBorder)]
    let count : WatchedRegistry.Reaction Unit Nat :=
      fun _ _ _ => modify fun (registry, heard) => (registry, heard + 1)
    let s : WatchedRegistry Unit × Nat := (⟨cyclic, 1, [(0, ())]⟩, 0)
    let new : WatchedRegistry Unit × Nat := ({}, 0)
    let theme := ({ kind := .highContrast } : Theme).withColor contrastBorder .black
    let theme' := theme.withColor "more" .white
    let once := registered count s
    let again := registered count ((register count).run s).2
    ((∀ number listener change, ByCalls (fun _ => False) (count number listener change)) ∧
        (∀ call : RegistryCall, False → call.id ∉ ids) ∧ theme'.kind = theme.kind ∧
        ∀ id ∈ ids, theme'.colors[id]? = theme.colors[id]?) ∧
      ((theme.attach once).view.color editorHoverBorder).run 62 = (some .black, 62) ∧
      (∀ id ∈ ids,
        (theme'.attach (registered count new)).color? id = (theme.attach once).color? id) ∧
      again.toList = once.toList ∧ (theme.attach again).view = (theme.attach once).view := by
  intro entry cyclic count s new theme theme' once again
  have hcount : ∀ number listener change,
      ByCalls (fun _ => False) (count number listener change) :=
    fun _ _ _ s => ⟨[], by simp, rfl⟩
  have hallowed : ∀ call : RegistryCall, False → call.id ∉ ids := fun _ hfalse => hfalse.elim
  have hmore : "more" ∉ ids := by decide
  have hown : ∀ id ∈ ids, theme'.colors[id]? = theme.colors[id]? := by
    intro id hid
    have hne : "more" ≠ id := fun heq => hmore (heq ▸ hid)
    simp [theme', Theme.withColor, Std.HashMap.getElem?_insert, hne]
  obtain ⟨-, hagree, byListeners, -, hsilent, hlist, -, hview⟩ :=
    registered_selfContained hcount hallowed s
  obtain rfl := hsilent fun _ => not_false
  have hoffers : (theme.attach once).Offers all :=
    Theme.offers_attach (holds_registered hcount hallowed s) theme
  have hhover : (theme.attach once).default? editorHoverBorder = some (same editorWidgetBorder) :=
    hoffers widgets[3] (by simp [all])
  have hwidget : (theme.attach once).default? editorWidgetBorder = some (same contrastBorder) :=
    hoffers widgets[1] (by simp [all])
  have hcolors (id : String) : (theme.attach once).colors[id]? =
      if contrastBorder = id then some .black else none := by
    simp [theme, Theme.attach, Theme.withColor, Std.HashMap.getElem?_insert]
  refine ⟨⟨hcount, hallowed, rfl, hown⟩, ?_, fun id hid => ?_, hlist, hview theme⟩
  · rw [hoffers.run_color selfContained (by decide) (by decide)]
    have hhash : contrastBorder.toList.head? ≠ some '#' ∧
        editorWidgetBorder.toList.head? ≠ some '#' := by decide
    have hhoverown : contrastBorder ≠ editorHoverBorder := by decide
    have hwidgetown : contrastBorder ≠ editorWidgetBorder := by decide
    simp [Theme.followed, hcolors, hhoverown, hwidgetown, hhover, hwidget, same,
      ColorValue.colorIn, hhash]
  · exact congrArg Prod.fst (hagree new theme theme' rfl hown id hid 0)

end StandardColor

end Highlight
