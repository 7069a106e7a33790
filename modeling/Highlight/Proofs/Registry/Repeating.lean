import Highlight.Proofs.Registry.Schemas

/-!
# Registering again

A contribution that a registry already holds can be registered again without anybody noticing:
nothing that can be asked of a registry tells the ones before and after apart
(`ColorRegistry.Matches`), and calls keep such registries indistinguishable (`Matches.perform`). So
when contributions are registered again and listeners make calls about other identifiers in between,
what remains of all this are the calls of the listeners (`Holds.exists_matches`).
-/

namespace Highlight

namespace ColorRegistry

variable {registry other : ColorRegistry}

/-! ### Registries that cannot be told apart -/

/-- The same identifiers in the same order, and the same contribution for each of them. -/
structure Matches (registry other : ColorRegistry) : Prop where
  ids : registry.ids = other.ids
  get? : ∀ id, registry.get? id = other.get? id

namespace Matches

theorem refl (registry : ColorRegistry) : registry.Matches registry := ⟨rfl, fun _ => rfl⟩

theorem trans {last : ColorRegistry} (h : registry.Matches other) (h' : other.Matches last) :
    registry.Matches last :=
  ⟨h.ids.trans h'.ids, fun id => (h.get? id).trans (h'.get? id)⟩

theorem toList_eq (h : registry.Matches other) : registry.toList = other.toList := by
  rw [toList, toList, h.ids]
  exact List.filterMap_congr fun id _ => h.get? id

theorem size_eq (h : registry.Matches other) : registry.size = other.size :=
  congrArg List.length h.ids

theorem default?_eq (h : registry.Matches other) (kind : ThemeKind) (id : String) :
    registry.default? kind id = other.default? kind id := by
  rw [default?, default?, h.get?]

/-- A call does the same to both. -/
theorem perform (h : registry.Matches other) (call : RegistryCall) :
    (call.perform registry).Matches (call.perform other) where
  ids := by
    cases call with
    | register contribution =>
        simp only [RegistryCall.perform, ids_insert, contains_eq_isSome, h.get?, h.ids]
    | deregister id =>
        simp only [RegistryCall.perform, ids_erase, contains_eq_isSome, h.get?, h.ids]
  get? id := by rw [get?_perform, get?_perform, h.get?]

theorem foldl_perform (h : registry.Matches other) (calls : List RegistryCall) :
    (calls.foldl RegistryCall.perform registry).Matches
      (calls.foldl RegistryCall.perform other) := by
  induction calls generalizing registry other with
  | nil => exact h
  | cons call calls ih => exact ih (h.perform call)

end Matches

/-! ### Contributions that are held -/

/-- The contributions are registered as they are. -/
def Holds (registry : ColorRegistry) (colors : List Contribution) : Prop :=
  ∀ color ∈ colors, registry.get? color.id = some color

variable {colors : List Contribution}

/-- Contributions with different identifiers are held once they have been registered, unless
listeners call for one of them. -/
theorem holds_foldl_of_interleaved {allowed : RegistryCall → Prop}
    (hallowed : ∀ call, allowed call → call.id ∉ colors.map (·.id)) {made : List RegistryCall}
    (hmade : Interleaved allowed (colors.map .register) made)
    (hnodup : (colors.map (·.id)).Nodup) (registry : ColorRegistry) :
    (made.foldl RegistryCall.perform registry).Holds colors := by
  intro color hmem
  have hother : ∀ call, allowed call → call.id ≠ color.id := fun call hcall heq =>
    hallowed call hcall (heq ▸ List.mem_map_of_mem hmem)
  rw [get?_foldl_of_interleaved hother hmade hnodup,
    (find?_id_eq_some hnodup).mpr ⟨hmem, rfl⟩, Option.some_or]

namespace Holds

theorem of_matches (h : other.Holds colors) (hmatches : registry.Matches other) :
    registry.Holds colors :=
  fun color hmem => (hmatches.get? color.id).trans (h color hmem)

theorem foldl_perform (h : registry.Holds colors) {calls : List RegistryCall}
    (hcalls : ∀ call ∈ calls, call.id ∉ colors.map (·.id)) :
    (calls.foldl RegistryCall.perform registry).Holds colors := by
  intro color hmem
  have hother : ∀ call ∈ calls, call.id ≠ color.id := fun call hcall heq =>
    hcalls call hcall (heq ▸ List.mem_map_of_mem hmem)
  rw [get?_foldl_of_ne hother, h color hmem]

/-- Registering a contribution where it is held already changes nothing. -/
theorem insert_matches (h : registry.Holds colors) {color : Contribution} (hmem : color ∈ colors) :
    (registry.insert color).Matches registry where
  ids := by
    rw [ids_insert, contains_eq_isSome, h color hmem]
    rfl
  get? id := by
    rw [get?_insert]
    split
    · next heq => exact heq ▸ (h color hmem).symm
    · rfl

/-- When contributions that are held are registered again, only the calls of the listeners leave
a trace. -/
theorem exists_matches (h : registry.Holds colors) {allowed : RegistryCall → Prop}
    (hallowed : ∀ call, allowed call → call.id ∉ colors.map (·.id)) {again : List Contribution}
    (hagain : again ⊆ colors) {made : List RegistryCall}
    (hmade : Interleaved allowed (again.map .register) made) :
    ∃ byListeners : List RegistryCall, (∀ call ∈ byListeners, allowed call) ∧
      (made.foldl RegistryCall.perform registry).Matches
        (byListeners.foldl RegistryCall.perform registry) := by
  induction again generalizing registry made with
  | nil =>
      cases hmade
      exact ⟨[], by simp, .refl registry⟩
  | cons color again ih =>
      obtain ⟨hmem, hagain⟩ := List.cons_subset.mp hagain
      cases hmade with
      | @cons _ here _ later hlisteners hrest =>
          have hsame : (here.foldl RegistryCall.perform (registry.insert color)).Matches
              (here.foldl RegistryCall.perform registry) :=
            (h.insert_matches hmem).foldl_perform here
          have hheld : (here.foldl RegistryCall.perform registry).Holds colors :=
            h.foldl_perform fun call hcall => hallowed call (hlisteners call hcall)
          obtain ⟨behind, hbehind, hmatches⟩ := ih (hheld.of_matches hsame) hagain hrest
          refine ⟨here ++ behind, List.forall_mem_append.mpr ⟨hlisteners, hbehind⟩, ?_⟩
          rw [List.foldl_cons, List.foldl_append, List.foldl_append]
          exact hmatches.trans (hsame.foldl_perform behind)

end Holds

end ColorRegistry

end Highlight
