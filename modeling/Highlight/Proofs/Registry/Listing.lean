import Highlight.Registry.Subscription
import Std.Data.HashMap.Lemmas
import Mathlib.Data.List.Nodup

/-!
# The registry is a list of colors

A registry keeps contributions in a hash table and their identifiers in an order beside it. From
outside it is one list of contributions with different identifiers: registering an identifier of the
list replaces its contribution where it is, registering another one adds it at the end, and removing
an identifier takes its contribution out.

`Lists` relates a registry to that list, and every call keeps the two related (`Lists.perform`).
Listeners make calls too, in the middle of a call by somebody else. These belong to the sequence of
calls like all others, because a call changes the colors first and announces the change afterwards
(`Interleaved`).
-/

namespace Highlight

/-! ### Calls -/

/-- A call that may change the set of colors. -/
inductive RegistryCall where
  | register (contribution : Contribution)
  | deregister (id : String)

/-- Replaces the contribution with the same identifier, or adds one at the end. -/
def Contribution.enterInto (contribution : Contribution) (colors : List Contribution) :
    List Contribution :=
  if contribution.id ∈ colors.map (·.id) then
    colors.map fun color => if color.id = contribution.id then contribution else color
  else colors ++ [contribution]

namespace RegistryCall

/-- Makes a call on a registry with listeners. -/
def run {L W : Type} (react : WatchedRegistry.Reaction L W) :
    RegistryCall → StateM (WatchedRegistry L × W) Unit
  | register contribution => do
      let _ ← WatchedRegistry.register react contribution
  | deregister id => WatchedRegistry.deregister react id

/-- What a call does to the colors. -/
def perform (registry : ColorRegistry) : RegistryCall → ColorRegistry
  | register contribution => registry.insert contribution
  | deregister id => registry.erase id

/-- What a call does to a list of contributions. -/
def onList (colors : List Contribution) : RegistryCall → List Contribution
  | register contribution => contribution.enterInto colors
  | deregister id => colors.filter (·.id ≠ id)

/-- The contributions that a sequence of calls leaves, beginning with none. -/
def listing (calls : List RegistryCall) : List Contribution := calls.foldl onList []

end RegistryCall

/-! ### Lists of contributions -/

theorem map_id_enterInto (contribution : Contribution) (colors : List Contribution) :
    (contribution.enterInto colors).map (·.id) =
      if contribution.id ∈ colors.map (·.id) then colors.map (·.id)
      else colors.map (·.id) ++ [contribution.id] := by
  unfold Contribution.enterInto
  split
  · -- a contribution is replaced by one with the same identifier
    rw [List.map_map]
    refine List.map_congr_left fun color _ => ?_
    by_cases hid : color.id = contribution.id
    · simp [hid]
    · simp [hid]
  · rw [List.map_append]
    rfl

theorem mem_enterInto {contribution color : Contribution} {colors : List Contribution} :
    color ∈ contribution.enterInto colors ↔
      color = contribution ∨ color ∈ colors ∧ color.id ≠ contribution.id := by
  unfold Contribution.enterInto
  by_cases hmem : contribution.id ∈ colors.map (·.id)
  · rw [if_pos hmem, List.mem_map]
    constructor
    · rintro ⟨old, hold, rfl⟩
      by_cases hid : old.id = contribution.id
      · exact Or.inl (if_pos hid)
      · rw [if_neg hid]
        exact Or.inr ⟨hold, hid⟩
    · rintro (rfl | ⟨hold, hid⟩)
      · obtain ⟨old, hold, hid⟩ := List.mem_map.mp hmem
        exact ⟨old, hold, if_pos hid⟩
      · exact ⟨color, hold, if_neg hid⟩
  · rw [if_neg hmem, List.mem_append, List.mem_singleton]
    constructor
    · rintro (hold | rfl)
      · exact Or.inr ⟨hold, fun hid => hmem (hid ▸ List.mem_map_of_mem hold)⟩
      · exact Or.inl rfl
    · rintro (rfl | ⟨hold, -⟩)
      · exact Or.inr rfl
      · exact Or.inl hold

theorem map_id_filter (colors : List Contribution) (id : String) :
    (colors.filter (·.id ≠ id)).map (·.id) = (colors.map (·.id)).filter (· ≠ id) := by
  rw [List.filter_map]
  rfl

/-- In a list with different identifiers a contribution is the first one with its own. -/
theorem find?_id_eq_some {colors : List Contribution} (hnodup : (colors.map (·.id)).Nodup)
    {id : String} {color : Contribution} :
    colors.find? (·.id == id) = some color ↔ color ∈ colors ∧ color.id = id := by
  constructor
  · intro hfound
    exact ⟨List.mem_of_find?_eq_some hfound, by simpa using List.find?_some hfound⟩
  · rintro ⟨hmem, rfl⟩
    cases hfound : colors.find? (·.id == color.id) with
    | none => exact absurd (List.find?_eq_none.mp hfound color hmem) (by simp)
    | some found =>
        have hid : found.id = color.id := by simpa using List.find?_some hfound
        have hsame := List.inj_on_of_nodup_map hnodup (List.mem_of_find?_eq_some hfound) hmem hid
        rw [hsame]

/-! ### What the operations do to a registry -/

namespace ColorRegistry

theorem contains_eq_isSome (registry : ColorRegistry) (id : String) :
    registry.contains id = (registry.get? id).isSome :=
  Std.HashMap.contains_eq_isSome_getElem?

theorem get?_insert (registry : ColorRegistry) (contribution : Contribution) (id : String) :
    (registry.insert contribution).get? id =
      if contribution.id = id then some contribution else registry.get? id := by
  simp [get?, insert, Std.HashMap.getElem?_insert]

theorem ids_insert (registry : ColorRegistry) (contribution : Contribution) :
    (registry.insert contribution).ids =
      if registry.contains contribution.id then registry.ids
      else registry.ids ++ [contribution.id] := by
  unfold ids insert contains
  split
  · rfl
  · exact Array.toList_push

theorem get?_erase (registry : ColorRegistry) (id other : String) :
    (registry.erase id).get? other = if id = other then none else registry.get? other := by
  unfold erase
  by_cases hcontains : registry.byId.contains id
  · rw [if_pos hcontains]
    simp [get?, Std.HashMap.getElem?_erase]
  · -- nothing is removed, but nothing was there either
    rw [if_neg hcontains]
    split
    · next heq =>
        subst heq
        exact Std.HashMap.getElem?_eq_none (by simpa using hcontains)
    · rfl

theorem ids_erase (registry : ColorRegistry) (id : String) :
    (registry.erase id).ids =
      if registry.contains id then registry.ids.filter (· ≠ id) else registry.ids := by
  unfold erase ids contains
  split
  · rw [Array.toList_filter]
    refine List.filter_congr fun other _ => ?_
    rw [Bool.eq_iff_iff]
    simp
  · rfl

/-! ### Registries and lists -/

/-- A registry holds the contributions of a list, in the order of the list. -/
structure Lists (registry : ColorRegistry) (colors : List Contribution) : Prop where
  ids : registry.ids = colors.map (·.id)
  nodup : (colors.map (·.id)).Nodup
  get? : ∀ id color, registry.get? id = some color ↔ color ∈ colors ∧ color.id = id

namespace Lists

variable {registry : ColorRegistry} {colors : List Contribution}

theorem contains_iff (h : registry.Lists colors) {id : String} :
    registry.contains id = true ↔ id ∈ colors.map (·.id) := by
  rw [contains_eq_isSome, Option.isSome_iff_exists, List.mem_map]
  simp only [h.get?]

theorem empty : ColorRegistry.empty.Lists [] where
  ids := rfl
  nodup := List.nodup_nil
  get? id color := by
    have hnone : ColorRegistry.empty.get? id = none := Std.HashMap.getElem?_empty
    simp [hnone]

theorem insert (h : registry.Lists colors) (contribution : Contribution) :
    (registry.insert contribution).Lists (contribution.enterInto colors) where
  ids := by
    simp only [ids_insert, map_id_enterInto, h.contains_iff, h.ids]
  nodup := by
    rw [map_id_enterInto]
    split
    · exact h.nodup
    · next hnew => exact List.nodup_append_comm.mp (h.nodup.cons hnew)
  get? id color := by
    rw [get?_insert, mem_enterInto]
    by_cases hid : contribution.id = id
    · subst hid
      rw [if_pos rfl, Option.some.injEq]
      constructor
      · rintro rfl
        exact ⟨Or.inl rfl, rfl⟩
      · rintro ⟨rfl | ⟨-, hne⟩, heq⟩
        · rfl
        · exact absurd heq hne
    · rw [if_neg hid, h.get?]
      constructor
      · rintro ⟨hmem, rfl⟩
        exact ⟨Or.inr ⟨hmem, Ne.symm hid⟩, rfl⟩
      · rintro ⟨rfl | ⟨hmem, -⟩, heq⟩
        · exact absurd heq hid
        · exact ⟨hmem, heq⟩

theorem erase (h : registry.Lists colors) (id : String) :
    (registry.erase id).Lists (colors.filter (·.id ≠ id)) where
  ids := by
    rw [ids_erase, map_id_filter, ← h.ids]
    split
    · rfl
    · -- an unknown identifier is not in the order
      next hunknown =>
        rw [h.contains_iff, ← h.ids] at hunknown
        symm
        rw [List.filter_eq_self]
        intro other hother
        simpa using fun heq : other = id => hunknown (heq ▸ hother)
  nodup := by
    rw [map_id_filter]
    exact h.nodup.filter _
  get? other color := by
    rw [get?_erase, List.mem_filter]
    by_cases hid : id = other
    · subst hid
      simp +contextual
    · rw [if_neg hid, h.get?]
      constructor
      · rintro ⟨hmem, rfl⟩
        exact ⟨⟨hmem, by simpa using Ne.symm hid⟩, rfl⟩
      · rintro ⟨⟨hmem, -⟩, heq⟩
        exact ⟨hmem, heq⟩

/-- **Every call keeps a registry and its list together.** -/
theorem perform (h : registry.Lists colors) (call : RegistryCall) :
    (call.perform registry).Lists (call.onList colors) := by
  cases call with
  | register contribution => exact h.insert contribution
  | deregister id => exact h.erase id

theorem get?_eq_find? (h : registry.Lists colors) (id : String) :
    registry.get? id = colors.find? (·.id == id) := by
  refine Option.ext fun color => ?_
  rw [h.get?, find?_id_eq_some h.nodup]

/-- No contribution is dropped from the order: each of its identifiers is found. -/
theorem toList_eq (h : registry.Lists colors) : registry.toList = colors := by
  have hfound : ∀ color ∈ colors, registry.get? color.id = some color :=
    fun color hmem => (h.get? color.id color).mpr ⟨hmem, rfl⟩
  rw [toList, h.ids, List.filterMap_map]
  calc colors.filterMap (registry.get? ∘ (·.id))
      = colors.filterMap some := List.filterMap_congr hfound
    _ = colors := List.filterMap_some

theorem size_eq (h : registry.Lists colors) : registry.size = colors.length := by
  have hlength : registry.ids.length = colors.length := by
    rw [h.ids, List.length_map]
  exact hlength

end Lists

end ColorRegistry

/-! ### Calls by listeners -/

/-- Something changes the colors by calls only, all of them of an allowed kind. -/
def ByCalls {L W α : Type} (allowed : RegistryCall → Prop)
    (act : StateM (WatchedRegistry L × W) α) : Prop :=
  ∀ s, ∃ calls : List RegistryCall, (∀ call ∈ calls, allowed call) ∧
    (act.run s).2.1.colors = calls.foldl RegistryCall.perform s.1.colors

/-- Calls of somebody, and the same calls with those that listeners make behind each of them. -/
inductive Interleaved (allowed : RegistryCall → Prop) :
    List RegistryCall → List RegistryCall → Prop
  | nil : Interleaved allowed [] []
  | cons {call : RegistryCall} {byListeners rest made : List RegistryCall}
      (hlisteners : ∀ other ∈ byListeners, allowed other)
      (hrest : Interleaved allowed rest made) :
      Interleaved allowed (call :: rest) (call :: (byListeners ++ made))

/-- Listeners need not make any call. -/
theorem Interleaved.self (allowed : RegistryCall → Prop) (calls : List RegistryCall) :
    Interleaved allowed calls calls := by
  induction calls with
  | nil => exact .nil
  | cons call calls ih =>
      have hnone : ∀ other ∈ ([] : List RegistryCall), allowed other := by simp
      exact .cons hnone ih

theorem Interleaved.eq_of_silent {allowed : RegistryCall → Prop} {calls made : List RegistryCall}
    (h : Interleaved allowed calls made) (hsilent : ∀ call, ¬ allowed call) : made = calls := by
  induction h with
  | nil => rfl
  | @cons call byListeners rest made hlisteners _ ih =>
      have hnone : byListeners = [] := by
        rw [List.eq_nil_iff_forall_not_mem]
        exact fun other hmem => hsilent other (hlisteners other hmem)
      rw [hnone, ih, List.nil_append]

section Listeners

variable {L W : Type} {allowed : RegistryCall → Prop} {react : WatchedRegistry.Reaction L W}

/-- Listeners that act by calls do so together. -/
theorem byCalls_forM {listeners : List (UInt64 × L)} {change : RegistryChange}
    (hreact : ∀ number listener, ByCalls allowed (react number listener change)) :
    ByCalls allowed (listeners.forM fun (number, listener) => react number listener change) := by
  induction listeners with
  | nil => exact fun s => ⟨[], by simp, rfl⟩
  | cons first rest ih =>
      intro s
      obtain ⟨number, listener⟩ := first
      obtain ⟨here, hhere, hcolors⟩ := hreact number listener s
      obtain ⟨later, hlater, hrest⟩ := ih ((react number listener change).run s).2
      refine ⟨here ++ later, ?_, ?_⟩
      · intro call hcall
        rcases List.mem_append.mp hcall with hcall | hcall
        · exact hhere call hcall
        · exact hlater call hcall
      · rw [List.foldl_append, ← hcolors, ← hrest]
        rfl

theorem byCalls_announce
    (hreact : ∀ number listener change, ByCalls allowed (react number listener change))
    (change : RegistryChange) : ByCalls allowed (WatchedRegistry.announce react change) := by
  intro s
  exact byCalls_forM (fun number listener => hreact number listener change) s

/-- A call changes the colors first; what happens behind it is up to the listeners. -/
theorem colors_run
    (hreact : ∀ number listener change, ByCalls allowed (react number listener change))
    (call : RegistryCall) (s : WatchedRegistry L × W) :
    ∃ byListeners : List RegistryCall, (∀ other ∈ byListeners, allowed other) ∧
      ((call.run react).run s).2.1.colors =
        byListeners.foldl RegistryCall.perform (call.perform s.1.colors) := by
  cases call with
  | register contribution =>
      exact byCalls_announce hreact (.registered contribution.id)
        ({ s.1 with colors := s.1.colors.insert contribution }, s.2)
  | deregister id =>
      exact byCalls_announce hreact (.deregistered id)
        ({ s.1 with colors := s.1.colors.erase id }, s.2)

theorem colors_forM_run
    (hreact : ∀ number listener change, ByCalls allowed (react number listener change))
    (calls : List RegistryCall) (s : WatchedRegistry L × W) :
    ∃ made, Interleaved allowed calls made ∧
      ((calls.forM (RegistryCall.run react)).run s).2.1.colors =
        made.foldl RegistryCall.perform s.1.colors := by
  induction calls generalizing s with
  | nil => exact ⟨[], .nil, rfl⟩
  | cons call rest ih =>
      obtain ⟨byListeners, hlisteners, hcolors⟩ := colors_run hreact call s
      obtain ⟨made, hmade, hrest⟩ := ih ((call.run react).run s).2
      refine ⟨call :: (byListeners ++ made), .cons hlisteners hmade, ?_⟩
      rw [List.foldl_cons, List.foldl_append, ← hcolors, ← hrest]
      rfl

end Listeners

/-! ### The main result -/

/-- Calls keep a registry and its list together. -/
theorem lists_foldl {registry : ColorRegistry} {colors : List Contribution}
    (h : registry.Lists colors) (calls : List RegistryCall) :
    (calls.foldl RegistryCall.perform registry).Lists (calls.foldl RegistryCall.onList colors) := by
  induction calls generalizing registry colors with
  | nil => exact h
  | cons call rest ih => exact ih (h.perform call)

/-- **The registry is a list of colors.** After every sequence of calls on a new registry, whatever
calls its listeners make on their part, the registry is from outside the list that all these calls
leave: its contributions in order, each under its own identifier and none twice, with its length,
its members and its lookup. Without calls by listeners it is the list that the given calls leave. -/
theorem registry_eq_listing {L W : Type} {react : WatchedRegistry.Reaction L W}
    {allowed : RegistryCall → Prop}
    (hreact : ∀ number listener change, ByCalls allowed (react number listener change))
    (next : UInt64) (listeners : List (UInt64 × L)) (w : W) (calls : List RegistryCall) :
    let start : WatchedRegistry L := ⟨.empty, next, listeners⟩
    let registry := ((calls.forM (RegistryCall.run react)).run (start, w)).2.1.colors
    ∃ made, Interleaved allowed calls made ∧ ((∀ call, ¬ allowed call) → made = calls) ∧
      let colors := RegistryCall.listing made
      registry.toList = colors ∧ registry.ids = colors.map (·.id) ∧
        (colors.map (·.id)).Nodup ∧ registry.size = colors.length ∧
        (registry.isEmpty = true ↔ colors = []) ∧
        (∀ id, registry.contains id = true ↔ ∃ color ∈ colors, color.id = id) ∧
        (∀ id, registry.get? id = colors.find? (·.id == id)) ∧
        ∀ color ∈ registry.toList, registry.get? color.id = some color := by
  intro start registry
  obtain ⟨made, hmade, hcolors⟩ := colors_forM_run hreact calls (start, w)
  have h : registry.Lists (RegistryCall.listing made) := by
    have hlists : (made.foldl RegistryCall.perform (start, w).1.colors).Lists
        (RegistryCall.listing made) := lists_foldl .empty made
    rw [← hcolors] at hlists
    exact hlists
  refine ⟨made, hmade, hmade.eq_of_silent, h.toList_eq, h.ids, h.nodup, h.size_eq, ?_, ?_,
    h.get?_eq_find?, ?_⟩
  · rw [ColorRegistry.isEmpty, h.size_eq, beq_iff_eq, List.length_eq_zero_iff]
  · intro id
    rw [h.contains_iff, List.mem_map]
  · intro color hmem
    rw [h.toList_eq] at hmem
    exact (h.get? color.id color).mpr ⟨hmem, rfl⟩

/-- One identifier is registered again where it is, and one is removed twice and registered again
behind the others, while a listener counts what it hears of. -/
theorem registry_eq_listing_again :
    let color (id description : String) : Contribution := { id, description, defaults := {} }
    let count : WatchedRegistry.Reaction Unit Nat :=
      fun _ _ _ => modify fun (registry, heard) => (registry, heard + 1)
    let calls : List RegistryCall :=
      [.register (color "a" "first"), .register (color "b" "second"),
        .register (color "c" "third"), .register (color "a" "replaced"), .deregister "b",
        .deregister "b", .register (color "b" "again")]
    let start : WatchedRegistry Unit := ⟨.empty, 1, [(0, ())]⟩
    let registry := ((calls.forM (RegistryCall.run count)).run (start, 0)).2.1.colors
    (∀ number listener change, ByCalls (fun _ => False) (count number listener change)) ∧
      registry.toList = [color "a" "replaced", color "c" "third", color "b" "again"] ∧
      registry.size = 3 := by
  intro color count calls start registry
  have hcount : ∀ number listener change,
      ByCalls (fun _ => False) (count number listener change) :=
    fun _ _ _ s => ⟨[], by simp, rfl⟩
  obtain ⟨made, -, hsilent, hlist, -, -, hsize, -⟩ :=
    registry_eq_listing hcount 1 [(0, ())] 0 calls
  obtain rfl : made = calls := hsilent fun _ => not_false
  have hlisting : RegistryCall.listing calls =
      [color "a" "replaced", color "c" "third", color "b" "again"] := by
    simp [calls, color, RegistryCall.listing, RegistryCall.onList, Contribution.enterInto]
  refine ⟨hcount, hlist.trans hlisting, hsize.trans ?_⟩
  rw [hlisting]
  rfl

end Highlight
