import Highlight.Proofs.Registry.Schemas
import Highlight.Proofs.Value.Overriding

/-!
# How far a chain of references reaches

A value links to an identifier if it refers to it and to nothing else, perhaps darker, lighter or
more transparent. When everything an identifier leads to either links on or is a color, there is
one chain of links from it. It gives a color exactly if it ends in one before the meter is used up:
every link opens one reference inside of those before it (`isSome_followed_iff`).

A chain is a walk in a function from identifiers to identifiers, so its steps are determined by
where it starts (`Leads.behind`). If it comes back to an identifier it goes on for ever, and then it
does not end in a color after any number of links.
-/

namespace Highlight

/-! ### What values are based on -/

namespace ColorValue

/-- What a value makes darker, lighter or more transparent, or else the value. -/
def core : ColorValue → ColorValue
  | darken value _ | lighten value _ | transparent value _ => core value
  | value => value

/-- A color or a reference. -/
def IsAtom : ColorValue → Prop
  | literal _ | reference _ => True
  | _ => False

/-- The value is based on a reference to an identifier. -/
def LinksTo (value : ColorValue) (id : String) : Prop :=
  value.core = reference id ∧ id.toList.head? ≠ some '#'

/-- The value is based on a color, which may be written behind a `#` and is valid then. -/
def IsBasedOn (value : ColorValue) (color : Color) : Prop :=
  value.core = literal color ∨
    ∃ id, value.core = reference id ∧ id.toList.head? = some '#' ∧ Color.ofHex id = .ok color

variable {value : ColorValue}

theorem LinksTo.unique {id other : String} (h : value.LinksTo id) (hother : value.LinksTo other) :
    id = other :=
  reference.inj (h.1.symm.trans hother.1)

theorem LinksTo.not_isBasedOn {id : String} (h : value.LinksTo id) (color : Color) :
    ¬ value.IsBasedOn color := by
  rintro (hcore | ⟨written, hcore, hwritten, -⟩)
  · exact nomatch h.1.symm.trans hcore
  · exact h.2 (reference.inj (h.1.symm.trans hcore) ▸ hwritten)

/-- Changing a color does not decide whether there is one. -/
theorem isSome_colorIn_core (colors : String → Option Color) :
    ∀ value : ColorValue, (value.core.colorIn colors).isSome = (value.colorIn colors).isSome
  | darken value _ | lighten value _ | transparent value _ => by
      rw [core, colorIn, Option.isSome_map, isSome_colorIn_core colors value]
  | literal _ | reference _ | oneOf _ | lessProminent .. | custom _ => rfl

theorem references_core : ∀ value : ColorValue, value.core.references = value.references
  | darken value _ | lighten value _ | transparent value _ => references_core value
  | literal _ | reference _ | oneOf _ | lessProminent .. | custom _ => rfl

theorem customFree_core : ∀ value : ColorValue, value.core.CustomFree ↔ value.CustomFree
  | darken value _ | lighten value _ | transparent value _ => customFree_core value
  | literal _ | reference _ | oneOf _ | lessProminent .. | custom _ => Iff.rfl

/-- A value that is based on a color or a reference links on, and has a color if the identifier has
one, or it does not link on and has a color if it is based on one. -/
theorem cases_of_isAtom_core (hatom : value.core.IsAtom) :
    (∃ id, value.LinksTo id ∧ ∀ colors, (value.colorIn colors).isSome = (colors id).isSome) ∨
      (∀ id, ¬ value.LinksTo id) ∧
        ∀ colors, (value.colorIn colors).isSome = true ↔ ∃ color, value.IsBasedOn color := by
  simp only [← isSome_colorIn_core _ value]
  cases hcore : value.core with
  | literal color =>
      refine .inr ⟨fun id hlink => (nomatch hcore.symm.trans hlink.1), fun colors => ?_⟩
      exact ⟨fun _ => ⟨color, .inl hcore⟩, fun _ => rfl⟩
  | reference id =>
      by_cases hid : id.toList.head? = some '#'
      · refine .inr ⟨fun next hlink => ?_, fun colors => ?_⟩
        · exact hlink.2 (reference.inj (hcore.symm.trans hlink.1) ▸ hid)
        · rw [colorIn, if_pos hid]
          constructor
          · intro hsome
            cases hread : Color.ofHex id with
            | error fault => simp [hread, Except.toOption] at hsome
            | ok color => exact ⟨color, .inr ⟨id, hcore, hid, hread⟩⟩
          · rintro ⟨color, hliteral | ⟨written, hwritten, -, hread⟩⟩
            · exact nomatch hcore.symm.trans hliteral
            · rw [reference.inj (hcore.symm.trans hwritten), hread]
              rfl
      · refine .inl ⟨id, ⟨hcore, hid⟩, fun colors => ?_⟩
        rw [colorIn, if_neg hid]
  | darken | lighten | transparent | oneOf | lessProminent | custom =>
      rw [hcore] at hatom
      exact hatom.elim

/-- Nothing but its link is behind such a value. -/
theorem encloses_of_isAtom_core (hatom : value.core.IsAtom) :
    value.CustomFree ∧ ∀ id ∈ value.references, value.LinksTo id := by
  rw [← customFree_core, ← references_core]
  cases hcore : value.core with
  | literal color => exact ⟨trivial, by simp [references]⟩
  | reference id =>
      refine ⟨trivial, fun next hnext => ?_⟩
      by_cases hid : id.toList.head? = some '#'
      · simp [references, hid] at hnext
      · obtain rfl : next = id := by simpa [references, hid] using hnext
        exact ⟨hcore, hid⟩
  | darken | lighten | transparent | oneOf | lessProminent | custom =>
      rw [hcore] at hatom
      exact hatom.elim

end ColorValue

namespace Theme

/-! ### Chains of links -/

/-- So many links lead from one identifier to another. Identifiers that the theme defines, that are
not registered or that have no default for the kind of the theme do not link on. -/
inductive Leads (theme : Theme) : Nat → String → String → Prop where
  | here {id} : Leads theme 0 id id
  | link {id value next last links} (hsource : theme.source? id = some value)
      (hlink : value.LinksTo next) (hrest : Leads theme links next last) :
      Leads theme (links + 1) id last

/-- Everything that an identifier leads to stands for a value that links on or is based on a
color, or for nothing. -/
def SingleChain (theme : Theme) (id : String) : Prop :=
  ∀ links last value, theme.Leads links id last → theme.source? last = some value →
    value.core.IsAtom

/-- The identifier stands for a value that is based on a color. -/
def IsColored (theme : Theme) (id : String) : Prop :=
  ∃ value color, theme.source? id = some value ∧ value.IsBasedOn color

variable {theme : Theme} {id last : String} {links : Nat}

theorem Leads.trans {more : Nat} {mid : String} (h : theme.Leads links id mid)
    (hmore : theme.Leads more mid last) : theme.Leads (links + more) id last := by
  induction h with
  | here => rwa [Nat.zero_add]
  | link hsource hlink _ ih =>
      rw [Nat.add_right_comm]
      exact .link hsource hlink (ih hmore)

/-- A longer chain from the same start goes on where a shorter one ends. -/
theorem Leads.behind {more : Nat} {mid : String} (h : theme.Leads links id mid)
    (hlong : theme.Leads (links + more) id last) : theme.Leads more mid last := by
  induction h with
  | here => rwa [Nat.zero_add] at hlong
  | link hsource hlink _ ih =>
      rw [Nat.add_right_comm] at hlong
      cases hlong with
      | link hsource' hlink' hrest =>
          obtain rfl := Option.some.inj (hsource.symm.trans hsource')
          obtain rfl := hlink.unique hlink'
          exact ih hrest

/-- What stands for a color does not link on. -/
theorem IsColored.not_leads (h : theme.IsColored id) {more : Nat} :
    ¬ theme.Leads (more + 1) id last := by
  obtain ⟨value, color, hsource, hbased⟩ := h
  rintro (_ | ⟨hsource', hlink, -⟩)
  obtain rfl := Option.some.inj (hsource.symm.trans hsource')
  exact hlink.not_isBasedOn color hbased

/-- Where a chain goes on it has not ended in a color yet. -/
theorem Leads.not_isColored_of_lt {long : Nat} {far : String} (h : theme.Leads links id last)
    (hlong : theme.Leads long id far) (hlt : links < long) : ¬ theme.IsColored last := by
  obtain ⟨more, rfl⟩ := Nat.exists_eq_add_of_lt hlt
  rw [Nat.add_assoc] at hlong
  exact fun hcolored => hcolored.not_leads (h.behind hlong)

/-- Identifiers that link to one another in order are a chain. -/
theorem leads_of_forall_link {name : Nat → String} {count : Nat}
    (hlinks : ∀ i < count, ∃ value,
      theme.source? (name i) = some value ∧ value.LinksTo (name (i + 1)))
    {first more : Nat} (hle : first + more ≤ count) :
    theme.Leads more (name first) (name (first + more)) := by
  induction more generalizing first with
  | zero => exact .here
  | succ more ih =>
      obtain ⟨value, hsource, hlink⟩ := hlinks first (by omega)
      have hrest : theme.Leads more (name (first + 1)) (name (first + 1 + more)) := ih (by omega)
      rw [Nat.add_right_comm] at hrest
      exact .link hsource hlink hrest

/-- Round a cycle there are chains of any length. -/
theorem Leads.exists_ge {more : Nat} (h : theme.Leads links id last)
    (hcycle : theme.Leads (more + 1) last last) (least : Nat) :
    ∃ total ≥ least, theme.Leads total id last := by
  induction least with
  | zero => exact ⟨links, Nat.zero_le _, h⟩
  | succ least ih =>
      obtain ⟨total, htotal, hleads⟩ := ih
      exact ⟨total + (more + 1), by omega, hleads.trans hcycle⟩

/-- A chain into a cycle does not end in a color. -/
theorem Leads.not_isColored_of_cycle {more : Nat} {mid : String} (h : theme.Leads links id last)
    (hcycle : theme.Leads (more + 1) last last) {earlier : Nat}
    (hearlier : theme.Leads earlier id mid) : ¬ theme.IsColored mid := by
  obtain ⟨total, htotal, hlong⟩ := h.exists_ge hcycle (earlier + 1)
  exact hearlier.not_isColored_of_lt hlong htotal

theorem SingleChain.next {value : ColorValue} {next : String} (h : theme.SingleChain id)
    (hsource : theme.source? id = some value) (hlink : value.LinksTo next) :
    theme.SingleChain next :=
  fun links last stands hleads => h (links + 1) last stands (.link hsource hlink hleads)

/-- A single chain leads to none but its own identifiers, and there is no custom computation. -/
theorem SingleChain.encloses (h : theme.SingleChain id) :
    theme.Encloses fun next => ∃ links, theme.Leads links id next := by
  rintro next value ⟨links, hleads⟩ hown hdefault
  have hsource : theme.source? next = some value := by rw [source?, hown, hdefault]; rfl
  obtain ⟨hfree, hlinks⟩ :=
    ColorValue.encloses_of_isAtom_core (h links next value hleads hsource)
  exact ⟨hfree, fun later hlater =>
    ⟨links + 1, hleads.trans (.link hsource (hlinks later hlater) .here)⟩⟩

/-! ### Chains of given colors -/

section Given

variable {colors : List Contribution}
    (hregistry : theme.registry = some (ColorRegistry.empty.insertAll colors))
    (hnodup : (colors.map (·.id)).Nodup)

include hregistry hnodup

/-- The default of an identifier is that of the color with it. -/
theorem default?_insertAll (id : String) :
    theme.default? id = (colors.find? (·.id == id)).bind (·.defaults.get theme.kind) := by
  have hempty : ColorRegistry.empty.get? id = none := Std.HashMap.getElem?_empty
  rw [default?_eq hregistry, ColorRegistry.default?, ColorRegistry.get?_insertAll hnodup, hempty,
    Option.or_none]

theorem source?_of_mem {color : Contribution} (hmem : color ∈ colors)
    (hown : theme.colors[color.id]? = none) :
    theme.source? color.id = color.defaults.get theme.kind := by
  rw [source?, hown, Option.map_none, Option.none_or, default?_insertAll hregistry hnodup,
    (find?_id_eq_some hnodup).mpr ⟨hmem, rfl⟩, Option.bind_some]

/-- If the defaults of all colors link on or are based on colors, then every identifier starts a
single chain. -/
theorem singleChain_of_forall_isAtom
    (hatoms : ∀ color ∈ colors, ∀ value, color.defaults.get theme.kind = some value →
      value.core.IsAtom) (id : String) : theme.SingleChain id := by
  intro links last value _ hsource
  rw [source?, Option.or_eq_some_iff] at hsource
  rcases hsource with hown | ⟨-, hdefault⟩
  · obtain ⟨color, -, rfl⟩ := Option.map_eq_some_iff.mp hown
    trivial
  · rw [default?_insertAll hregistry hnodup, Option.bind_eq_some_iff] at hdefault
    obtain ⟨color, hfound, hvalue⟩ := hdefault
    exact hatoms color (List.mem_of_find?_eq_some hfound) value hvalue

end Given

/-! ### What can be reached -/

/-- The chain from an identifier ends in a color after fewer than so many links. -/
def ColoredWithin (theme : Theme) (bound : Nat) (id : String) : Prop :=
  ∃ links < bound, ∃ last, theme.Leads links id last ∧ theme.IsColored last

theorem coloredWithin_of_link {value : ColorValue} {next : String}
    (hsource : theme.source? id = some value) (hlink : value.LinksTo next) (bound : Nat) :
    theme.ColoredWithin (bound + 1) id ↔ theme.ColoredWithin bound next := by
  constructor
  · rintro ⟨links, hlt, last, hleads, hcolored⟩
    cases hleads with
    | here => exact absurd (.link hsource hlink .here) hcolored.not_leads
    | link hsource' hlink' hrest =>
        obtain rfl := Option.some.inj (hsource.symm.trans hsource')
        obtain rfl := hlink.unique hlink'
        exact ⟨_, by omega, last, hrest, hcolored⟩
  · rintro ⟨links, hlt, last, hleads, hcolored⟩
    exact ⟨links + 1, by omega, last, .link hsource hlink hleads, hcolored⟩

theorem coloredWithin_of_not_link
    (hnone : ∀ value next, theme.source? id = some value → ¬ value.LinksTo next) (bound : Nat) :
    theme.ColoredWithin (bound + 1) id ↔ theme.IsColored id := by
  constructor
  · rintro ⟨links, -, last, hleads, hcolored⟩
    cases hleads with
    | here => exact hcolored
    | link hsource hlink _ => exact absurd hlink (hnone _ _ hsource)
  · exact fun hcolored => ⟨0, by omega, id, .here, hcolored⟩

/-- When so many references may be opened, following an identifier gives a color exactly if its
chain ends in one after fewer links: by induction on the room, since following a link takes one. -/
theorem isSome_followed_iff (h : theme.SingleChain id) (room : Nat) :
    (theme.followed room id).isSome = true ↔ theme.ColoredWithin room id := by
  induction room generalizing id with
  | zero => simp [followed, ColoredWithin]
  | succ room ih =>
      rw [followed_succ]
      cases hsource : theme.source? id with
      | none =>
          rw [coloredWithin_of_not_link fun value next hvalue => by simp [hsource] at hvalue]
          simp [IsColored, hsource]
      | some value =>
          rw [Option.bind_some]
          obtain ⟨next, hlink, hsome⟩ | ⟨hnone, hsome⟩ :=
            ColorValue.cases_of_isAtom_core (h 0 id value .here hsource)
          · rw [hsome, coloredWithin_of_link hsource hlink, ih (h.next hsource hlink)]
          · rw [hsome, coloredWithin_of_not_link]
            · simp [IsColored, hsource]
            · intro stands next hstands
              obtain rfl := Option.some.inj (hsource.symm.trans hstands)
              exact hnone next

/-! ### The main result -/

/-- **How far a chain of references reaches.** Let a single chain of links start at an identifier.
From a start of the meter, the identifier gives a color exactly if the chain ends in one after no
more links than references may still be opened, and those are 64 inside of none. A reference to the
identifier is one of them itself. If the chain ever comes back to an identifier, neither gives a
color. -/
theorem chain_reaches (h : theme.SingleChain id) (meter : Nat) :
    (((theme.view.color id).run meter).1.isSome = true ↔
        ∃ links ≤ maxReferences - meter, ∃ last,
          theme.Leads links id last ∧ theme.IsColored last) ∧
      (id.toList.head? ≠ some '#' →
        ((((ColorValue.reference id).resolve theme.view).run meter).1.isSome = true ↔
          ∃ links < maxReferences - meter, ∃ last,
            theme.Leads links id last ∧ theme.IsColored last)) ∧
      ∀ links more last, theme.Leads links id last → theme.Leads (more + 1) last last →
        (theme.view.color id).run meter = (none, meter) ∧
          (id.toList.head? ≠ some '#' →
            ((ColorValue.reference id).resolve theme.view).run meter = (none, meter)) := by
  have hcolor : (theme.view.color id).run meter =
      (theme.followed (maxReferences - meter + 1) id, meter) :=
    run_color_of_encloses h.encloses ⟨0, .here⟩ meter
  have hreference (hid : id.toList.head? ≠ some '#') :
      ((ColorValue.reference id).resolve theme.view).run meter =
        (theme.followed (maxReferences - meter) id, meter) := by
    have hvalue : (ColorValue.reference id).CustomFree := trivial
    rw [run_resolve_of_encloses h.encloses hvalue, ColorValue.colorIn, if_neg hid]
    intro next hnext
    obtain rfl : next = id := by simpa [ColorValue.references, hid] using hnext
    exact ⟨0, .here⟩
  refine ⟨?_, fun hid => ?_, fun links more last hleads hcycle => ?_⟩
  · rw [hcolor, isSome_followed_iff h]
    simp only [ColoredWithin, Nat.lt_succ_iff]
  · rw [hreference hid, isSome_followed_iff h]
    rfl
  · have hnone (room : Nat) : theme.followed room id = none := by
      rw [← Option.not_isSome_iff_eq_none, isSome_followed_iff h]
      rintro ⟨earlier, -, mid, hearlier, hcolored⟩
      exact hleads.not_isColored_of_cycle hcycle hearlier hcolored
    exact ⟨by rw [hcolor, hnone], fun hid => by rw [hreference hid, hnone]⟩

/-- A chain of 65 links to a color, which is in reach from its second identifier on and for a
reference from its third one on, and an identifier that links to itself. -/
theorem chain_reaches_longest :
    let name (i : Nat) : String := String.ofList (List.replicate i 'x')
    let value (i : Nat) : ColorValue :=
      if i = 65 then .literal .black
      else if i = 66 then .reference (name 66)
      else .darken (.reference (name (i + 1))) 0.5
    let entry (i : Nat) : Contribution :=
      { id := name i, description := "", defaults := .all (value i) }
    let theme : Theme :=
      ({} : Theme).attach (ColorRegistry.empty.insertAll ((List.range 67).map entry))
    (∀ i, theme.SingleChain (name i)) ∧
      (theme.color? (name 0)).isSome = false ∧ (theme.color? (name 1)).isSome = true ∧
      (theme.resolve (.reference (name 1))).isSome = false ∧
      (theme.resolve (.reference (name 2))).isSome = true ∧
      (theme.view.color (name 66)).run 7 = (none, 7) := by
  intro name value entry theme
  have hname : Function.Injective name := by
    intro i j hij
    have hlength := congrArg String.length hij
    simpa [name] using hlength
  have hnodup : (((List.range 67).map entry).map (·.id)).Nodup := by
    rw [List.map_map]
    exact List.nodup_range.map hname
  have hget (i : Nat) : (entry i).defaults.get theme.kind = some (value i) :=
    ColorDefaults.get_all ..
  have hsource (i : Nat) (hi : i < 67) : theme.source? (name i) = some (value i) := by
    have hmem : entry i ∈ (List.range 67).map entry := List.mem_map_of_mem (List.mem_range.mpr hi)
    exact (source?_of_mem rfl hnodup hmem Std.HashMap.getElem?_empty).trans (hget i)
  have hsingle (id : String) : theme.SingleChain id := by
    refine singleChain_of_forall_isAtom rfl hnodup (fun color hmem stands hstands => ?_) id
    obtain ⟨i, -, rfl⟩ := List.mem_map.mp hmem
    obtain rfl := Option.some.inj ((hget i).symm.trans hstands)
    simp only [value]
    split_ifs <;> exact trivial
  have hplain (i : Nat) : (name (i + 1)).toList.head? ≠ some '#' := by
    simp [name, List.replicate_succ]
  have hlinks : ∀ i < 65, ∃ value,
      theme.source? (name i) = some value ∧ value.LinksTo (name (i + 1)) := by
    refine fun i hi => ⟨value i, hsource i (by omega), ?_, hplain i⟩
    simp only [value]
    rw [if_neg (by omega), if_neg (by omega)]
    rfl
  have hend : theme.IsColored (name 65) := ⟨value 65, .black, hsource 65 (by omega), .inl rfl⟩
  have hloop : theme.Leads 1 (name 66) (name 66) :=
    .link (hsource 66 (by omega)) ⟨rfl, hplain 65⟩ .here
  obtain ⟨hcolor0, -, -⟩ := chain_reaches (hsingle (name 0)) 0
  obtain ⟨hcolor1, hreference1, -⟩ := chain_reaches (hsingle (name 1)) 0
  obtain ⟨-, hreference2, -⟩ := chain_reaches (hsingle (name 2)) 0
  obtain ⟨-, -, hcycle⟩ := chain_reaches (hsingle (name 66)) 7
  have hlong0 : theme.Leads 65 (name 0) (name 65) := leads_of_forall_link hlinks (Nat.le_refl 65)
  have hlong1 : theme.Leads 64 (name 1) (name 65) := leads_of_forall_link hlinks (Nat.le_refl 65)
  refine ⟨fun i => hsingle (name i), ?_, ?_, ?_, ?_, (hcycle 0 0 _ .here hloop).1⟩
  · refine Bool.eq_false_iff.mpr fun hsome => ?_
    obtain ⟨links, hle, last, hlast, hcolored⟩ := hcolor0.mp hsome
    exact hlast.not_isColored_of_lt hlong0 (Nat.lt_succ_of_le hle) hcolored
  · exact hcolor1.mpr ⟨64, Nat.le_refl _, _, hlong1, hend⟩
  · refine Bool.eq_false_iff.mpr fun hsome => ?_
    obtain ⟨links, hlt, last, hlast, hcolored⟩ := (hreference1 (hplain 0)).mp hsome
    exact hlast.not_isColored_of_lt hlong1 hlt hcolored
  · have hlong2 : theme.Leads 63 (name 2) (name 65) := leads_of_forall_link hlinks (Nat.le_refl 65)
    exact (hreference2 (hplain 1)).mpr ⟨63, Nat.lt_succ_self 63, _, hlong2, hend⟩

end Theme

end Highlight
