import Highlight.Proofs.Value.Termination

/-!
# The meaning of values

Without a bound on open references an identifier means a color, or no color, if the defaults that
it leads to do so in finitely many steps (`Theme.Means`); what it means is then unique. On a cycle
nothing has a meaning. The meter cuts chains of references, so as long as no chain is longer than
the room that it leaves, resolution finds the meaning. It does not matter how many chains there are
beside one another.
-/

namespace Highlight.Theme

/-! ### Meanings and chains -/

/-- What an identifier means: the theme's own color, or else what its default is composed to from
the meanings of the identifiers in it. -/
inductive Means (theme : Theme) : String → Option Color → Prop where
  | own {id color} (hown : theme.colors[id]? = some color) : Means theme id (some color)
  | missing {id} (hown : theme.colors[id]? = none) (hdefault : theme.default? id = none) :
      Means theme id none
  | byDefault {id value} (colors : String → Option Color) (hown : theme.colors[id]? = none)
      (hdefault : theme.default? id = some value)
      (hreferences : ∀ next ∈ value.references, Means theme next (colors next)) :
      Means theme id (value.colorIn colors)

/-- What a value means: what it is composed to from the meanings of the identifiers in it. -/
def ValueMeans (theme : Theme) (value : ColorValue) (color : Option Color) : Prop :=
  ∃ colors, (∀ id ∈ value.references, theme.Means id (colors id)) ∧ value.colorIn colors = color

/-- A chain of references that starts in a value and goes on through defaults of identifiers that
the theme does not define. -/
inductive Chain (theme : Theme) : ColorValue → List String → Prop where
  | last {value id} (hmem : id ∈ value.references) : Chain theme value [id]
  | step {value id next rest} (hmem : id ∈ value.references) (hown : theme.colors[id]? = none)
      (hdefault : theme.default? id = some next) (hrest : Chain theme next rest) :
      Chain theme value (id :: rest)

variable {theme : Theme} {value : ColorValue} {color other : Option Color} {id : String}

/-! ### Meanings are unique -/

theorem Means.unique (h : theme.Means id color) (h' : theme.Means id other) : color = other := by
  induction h generalizing other with
  | own hown =>
      cases h' with
      | own hown' => rw [← hown, hown']
      | missing hown' | byDefault _ hown' => simp [hown] at hown'
  | missing hown hdefault =>
      cases h' with
      | own hown' => simp [hown] at hown'
      | missing => rfl
      | byDefault _ _ hdefault' => simp [hdefault] at hdefault'
  | byDefault _ hown hdefault _ ih =>
      cases h' with
      | own hown' => simp [hown] at hown'
      | missing _ hdefault' => simp [hdefault] at hdefault'
      | byDefault _ _ hdefault' hreferences' =>
          obtain rfl := Option.some.inj (hdefault.symm.trans hdefault')
          exact ColorValue.colorIn_congr fun next hmem => ih next hmem (hreferences' next hmem)

theorem ValueMeans.unique (h : theme.ValueMeans value color) (h' : theme.ValueMeans value other) :
    color = other := by
  obtain ⟨colors, hcolors, rfl⟩ := h
  obtain ⟨others, hothers, rfl⟩ := h'
  exact ColorValue.colorIn_congr fun id hmem => (hcolors id hmem).unique (hothers id hmem)

/-! ### Room for all chains -/

/-- If defaults only lead to identifiers of lower rank, ranks bound the chains. -/
theorem Chain.length_le (rank : String → Nat) {chain : List String} {room : Nat}
    (hrank : ∀ id next, theme.default? id = some next →
      ∀ later ∈ next.references, rank later < rank id)
    (h : theme.Chain value chain) (hvalue : ∀ id ∈ value.references, rank id < room) :
    chain.length ≤ room := by
  induction h generalizing room with
  | last hmem => exact Nat.lt_of_le_of_lt (Nat.zero_le _) (hvalue _ hmem)
  | step hmem _ hdefault _ ih =>
      have hrest := ih (hrank _ _ hdefault)
      have hid := hvalue _ hmem
      rw [List.length_cons]
      omega

/-- With room for the longest chain, following a reference gives what the identifier means. -/
theorem means_followed {room : Nat}
    (hchains : ∀ chain, theme.Chain value chain → chain.length ≤ room)
    (hmem : id ∈ value.references) : theme.Means id (theme.followed room id) := by
  induction room generalizing value id with
  | zero => exact absurd (hchains [id] (.last hmem)) (by simp)
  | succ room ih =>
      rw [followed]
      cases hown : theme.colors[id]? with
      | some color => exact .own hown
      | none =>
          cases hdefault : theme.default? id with
          | none => exact .missing hown hdefault
          | some next =>
              refine .byDefault _ hown hdefault fun later hlater => ih ?_ hlater
              intro chain hchain
              have hlonger := hchains (id :: chain) (.step hmem hown hdefault hchain)
              simpa using hlonger

/-- **As long as no chain of references is cut, resolution gives the meaning of a value.** -/
theorem run_resolve_eq_iff_valueMeans (htheme : theme.CustomFree) (hvalue : value.CustomFree)
    {meter : Nat}
    (hchains : ∀ chain, theme.Chain value chain → meter + chain.length ≤ maxReferences) :
    (∀ color, (value.resolve theme.view).run meter = (color, meter) ↔
        theme.ValueMeans value color) ∧
      ∀ other,
        (∀ chain, theme.Chain value chain → other + chain.length ≤ maxReferences) →
          ((value.resolve theme.view).run other).1 = ((value.resolve theme.view).run meter).1 := by
  have hmeans : ∀ start,
      (∀ chain, theme.Chain value chain → start + chain.length ≤ maxReferences) →
        theme.ValueMeans value ((value.resolve theme.view).run start).1 := by
    intro start hstart
    rw [run_resolve htheme hvalue]
    refine ⟨_, fun id hmem => means_followed (fun chain hchain => ?_) hmem, rfl⟩
    have hlength := hstart chain hchain
    omega
  refine ⟨fun color => ⟨?_, ?_⟩, ?_⟩
  · intro hrun
    have h := hmeans meter hchains
    rw [hrun] at h
    exact h
  · intro hcolor
    have hafter : ((value.resolve theme.view).run meter).2 = meter := by
      rw [run_resolve htheme hvalue]
    exact Prod.ext ((hmeans meter hchains).unique hcolor) hafter
  · intro other hother
    exact (hmeans other hother).unique (hmeans meter hchains)

/-- With room for two more references, a value that refers to a chain of two, to its end once more
and to an unknown identifier. -/
theorem run_resolve_eq_iff_valueMeans_two :
    let registry := ColorRegistry.empty.insertAll
      [{ id := "a", description := "", defaults := .all (.reference "b") },
       { id := "b", description := "", defaults := .all (.literal .black) }]
    let theme : Theme := { registry := some registry }
    let value : ColorValue := .oneOf [.reference "gone", .reference "a", .reference "b"]
    theme.CustomFree ∧ value.CustomFree ∧
      (∀ chain, theme.Chain value chain → 62 + chain.length ≤ maxReferences) ∧
      theme.ValueMeans value (some .black) ∧
      (value.resolve theme.view).run 62 = (some .black, 62) := by
  intro registry theme value
  have hown : ∀ id : String, theme.colors[id]? = none := fun id => by simp [theme]
  have hdefault : ∀ id, theme.default? id =
      if "b" = id then some (.literal .black)
      else if "a" = id then some (.reference "b") else none := by
    intro id
    simp [theme, registry, Theme.default?, ColorRegistry.insertAll, ColorRegistry.default?_insert,
      ColorRegistry.default?_empty, ColorDefaults.all, ColorDefaults.get]
  have htheme : theme.CustomFree := by
    intro id next hnext
    rw [hdefault] at hnext
    grind [ColorValue.CustomFree]
  have hvalue : value.CustomFree := by
    simp [value, ColorValue.CustomFree, ColorValue.AllCustomFree]
  have hchains : ∀ chain, theme.Chain value chain → chain.length ≤ 2 := by
    intro chain hchain
    refine hchain.length_le (fun id => if id = "a" then 1 else 0) ?_ ?_
    · intro id next hnext later hlater
      rw [hdefault] at hnext
      grind [ColorValue.references]
    · intro id hid
      grind
  have hmeans : theme.ValueMeans value (some .black) := by
    refine ⟨fun id => if id = "gone" then none else some .black, ?_, by decide⟩
    have hb : theme.Means "b" (some .black) := by
      have h := Means.byDefault (fun _ => none) (hown "b") (hdefault "b")
      exact h (by simp [ColorValue.references])
    intro id hid
    have hcases : id = "gone" ∨ id = "a" ∨ id = "b" := by
      simpa [value, ColorValue.references, ColorValue.referencesOfAll] using hid
    obtain rfl | rfl | rfl := hcases
    · exact .missing (hown _) (hdefault _)
    · have h := Means.byDefault (fun _ => some .black) (hown "a") (hdefault "a")
      exact h (by simpa [ColorValue.references] using hb)
    · exact hb
  have hfits : ∀ chain, theme.Chain value chain → 62 + chain.length ≤ maxReferences := by
    intro chain hchain
    have hlength := hchains chain hchain
    rw [maxReferences]
    omega
  exact ⟨htheme, hvalue, hfits, hmeans,
    ((run_resolve_eq_iff_valueMeans htheme hvalue hfits).1 _).mpr hmeans⟩

end Highlight.Theme
