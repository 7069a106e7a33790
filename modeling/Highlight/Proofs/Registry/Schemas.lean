import Highlight.Proofs.Registry.Listing
import Highlight.Registry.Schema
import Mathlib.Data.List.Forall2
import Mathlib.Data.List.Induction

/-!
# Schemas follow the registry

What a registry holds under an identifier is what the last call about that identifier left there
(`ColorRegistry.get?_foldl_perform`). Both schemas are made from the list of contributions that the
registry stands for, each entry from one of them. So a schema says of every color what its latest
contribution says. Contributions that were replaced or removed have left no trace: the schemas are
those of a new registry that has only ever been given the present contributions.

The reference schema takes its names from the order of identifiers and its descriptions from the
contributions found for them. The two stay side by side because none of the identifiers is without
a contribution.
-/

namespace Highlight

/-! ### Fields of records -/

/-- The value of a field of a record. -/
def Json.field? (name : String) : Json → Option Json
  | record fields => fields.lookup name
  | _ => none

/-- The schema of one color tells what a contribution says: its description, whether the color must
be transparent, and why it should no longer be used. -/
structure Json.Describes (property : Json) (color : Contribution) : Prop where
  description : property.field? "description" = some (.text color.description)
  pattern : property.field? "pattern" =
    if color.needsTransparency then some (.text transparentPattern) else none
  patternErrorMessage : property.field? "patternErrorMessage" =
    if color.needsTransparency then
      some (.text "This color must be transparent or it will obscure content")
    else none
  deprecation : property.field? "deprecationMessage" = color.deprecation.map .text

theorem Contribution.schema_describes (color : Contribution) : color.schema.Describes color := by
  obtain ⟨id, description, defaults, needsTransparency, deprecation⟩ := color
  cases needsTransparency <;> cases deprecation <;> exact ⟨rfl, rfl, rfl, rfl⟩

/-! ### The last call about an identifier -/

namespace RegistryCall

/-- The identifier that a call is about. -/
def id : RegistryCall → String
  | register contribution => contribution.id
  | deregister id => id

/-- What a call leaves under its identifier. -/
def left : RegistryCall → Option Contribution
  | register contribution => some contribution
  | deregister _ => none

/-- What the last call about an identifier left there. -/
def latest? (calls : List RegistryCall) (id : String) : Option Contribution :=
  (calls.reverse.find? (·.id = id)).bind left

theorem latest?_concat (calls : List RegistryCall) (call : RegistryCall) (id : String) :
    latest? (calls ++ [call]) id = if call.id = id then call.left else latest? calls id := by
  rw [latest?, List.reverse_append, List.reverse_singleton, List.singleton_append, List.find?_cons]
  by_cases hid : call.id = id
  · simp [hid]
  · simp [hid, latest?]

end RegistryCall

namespace ColorRegistry

theorem get?_perform (registry : ColorRegistry) (call : RegistryCall) (id : String) :
    (call.perform registry).get? id = if call.id = id then call.left else registry.get? id := by
  cases call with
  | register contribution => exact registry.get?_insert contribution id
  | deregister removed => exact registry.get?_erase removed id

/-- **A registry holds what the last calls left.** -/
theorem get?_foldl_perform (calls : List RegistryCall) (id : String) :
    (calls.foldl RegistryCall.perform .empty).get? id = RegistryCall.latest? calls id := by
  induction calls using List.reverseRecOn with
  | nil => exact Std.HashMap.getElem?_empty
  | append_singleton calls call ih =>
      rw [List.foldl_append, RegistryCall.latest?_concat, ← ih]
      exact get?_perform _ call id

/-- Calls about other identifiers leave alone what is registered under this one. -/
theorem get?_foldl_of_ne {calls : List RegistryCall} {id : String}
    (hcalls : ∀ call ∈ calls, call.id ≠ id) (registry : ColorRegistry) :
    (calls.foldl RegistryCall.perform registry).get? id = registry.get? id := by
  induction calls generalizing registry with
  | nil => rfl
  | cons call calls ih =>
      obtain ⟨hcall, hcalls⟩ := List.forall_mem_cons.mp hcalls
      rw [List.foldl_cons, ih hcalls, get?_perform, if_neg hcall]

/-- Contributions with different identifiers are found as they were registered, whatever calls about
other identifiers were made in between. -/
theorem get?_foldl_of_interleaved {allowed : RegistryCall → Prop} {id : String}
    (hallowed : ∀ call, allowed call → call.id ≠ id) {colors : List Contribution}
    {made : List RegistryCall} (hmade : Interleaved allowed (colors.map .register) made)
    (hnodup : (colors.map (·.id)).Nodup) (registry : ColorRegistry) :
    (made.foldl RegistryCall.perform registry).get? id =
      (colors.find? (·.id == id)).or (registry.get? id) := by
  induction colors generalizing made registry with
  | nil =>
      cases hmade
      rfl
  | cons color colors ih =>
      obtain ⟨hnew, hnodup⟩ := List.nodup_cons.mp hnodup
      cases hmade with
      | cons hlisteners hrest =>
          have hspared := get?_foldl_of_ne fun call hcall => hallowed call (hlisteners call hcall)
          rw [List.foldl_cons, List.foldl_append, ih hrest hnodup, hspared, RegistryCall.perform,
            get?_insert, List.find?_cons]
          by_cases heq : color.id = id
          · have hnone : colors.find? (·.id == id) = none := by
              rw [List.find?_eq_none]
              intro other hother hid
              exact hnew (List.mem_map.mpr ⟨other, hother, (beq_iff_eq.mp hid).trans heq.symm⟩)
            simp [heq, hnone]
          · rw [if_neg heq, beq_false_of_ne heq]

theorem get?_insertAll {colors : List Contribution} (hnodup : (colors.map (·.id)).Nodup)
    (registry : ColorRegistry) (id : String) :
    (registry.insertAll colors).get? id =
      (colors.find? (·.id == id)).or (registry.get? id) := by
  have hnone : ∀ call : RegistryCall, False → call.id ≠ id := fun _ hfalse => hfalse.elim
  have h := get?_foldl_of_interleaved hnone (Interleaved.self _ (colors.map .register)) hnodup
    registry
  rwa [List.foldl_map] at h

/-- The contributions that calls leave are those that the last calls left. -/
theorem latest?_eq_some_iff {calls : List RegistryCall} {id : String} {color : Contribution} :
    RegistryCall.latest? calls id = some color ↔
      color ∈ RegistryCall.listing calls ∧ color.id = id := by
  rw [← get?_foldl_perform]
  exact (lists_foldl .empty calls).get? id color

/-! ### Schemas of lists -/

namespace Lists

variable {registry other : ColorRegistry} {colors : List Contribution}

theorem referenceSchema_eq (h : registry.Lists colors) :
    registry.referenceSchema =
      .record [("type", .text "string"), ("enum", Json.texts (colors.map (·.id))),
        ("enumDescriptions", Json.texts (colors.map (·.description)))] := by
  rw [referenceSchema, h.ids, h.toList_eq]

theorem colorSchema_eq (h : registry.Lists colors) :
    registry.colorSchema =
      .record [("type", .text "object"),
        ("properties", .record (colors.map fun color => (color.id, color.schema)))] := by
  rw [colorSchema, h.toList_eq]

/-- Contributions with different identifiers are listed as they are entered. -/
theorem insertAll {before : List Contribution} (h : registry.Lists before)
    (hnodup : ((before ++ colors).map (·.id)).Nodup) :
    (registry.insertAll colors).Lists (before ++ colors) := by
  induction colors generalizing registry before with
  | nil => simpa [ColorRegistry.insertAll] using h
  | cons color colors ih =>
      have hnew : color.id ∉ before.map (·.id) := by
        rw [List.map_append, List.map_cons, List.nodup_append] at hnodup
        exact fun hmem => hnodup.2.2 _ hmem _ List.mem_cons_self rfl
      have hentered : color.enterInto before = before ++ [color] := if_neg hnew
      have hcolor := h.insert color
      rw [hentered] at hcolor
      rw [List.append_cons] at hnodup ⊢
      exact ih hcolor hnodup

end Lists

end ColorRegistry

/-! ### The main result -/

section

variable {L W : Type} {react : WatchedRegistry.Reaction L W} {allowed : RegistryCall → Prop}

/-- What calls leave in a new registry is listed by the calls that were made. -/
theorem exists_lists_run
    (hreact : ∀ number listener change, ByCalls allowed (react number listener change))
    (next : UInt64) (listeners : List (UInt64 × L)) (w : W) (calls : List RegistryCall) :
    ∃ made, Interleaved allowed calls made ∧
      ((calls.forM (RegistryCall.run react)).run (⟨.empty, next, listeners⟩, w)).2.1.colors.Lists
        (RegistryCall.listing made) := by
  obtain ⟨made, hmade, hcolors⟩ := colors_forM_run hreact calls (⟨.empty, next, listeners⟩, w)
  refine ⟨made, hmade, ?_⟩
  rw [hcolors]
  exact lists_foldl .empty made

/-- **Schemas follow the registry.** After every sequence of calls on a new registry, whatever calls
its listeners make on their part, the names of the reference schema are the identifiers of the
colors in order, none twice, each beside the description of its latest contribution. The color
schema has a property for each of these identifiers and for no other, which describes the latest
contribution. Identifiers whose last call removed them are not among them, and both schemas are
those of a registry that was given the present contributions and nothing before. -/
theorem schemas_follow_registry
    (hreact : ∀ number listener change, ByCalls allowed (react number listener change))
    (next : UInt64) (listeners : List (UInt64 × L)) (w : W) (calls : List RegistryCall) :
    let start : WatchedRegistry L := ⟨.empty, next, listeners⟩
    let registry := ((calls.forM (RegistryCall.run react)).run (start, w)).2.1.colors
    let ids := registry.toList.map (·.id)
    ∃ made, Interleaved allowed calls made ∧ ((∀ call, ¬ allowed call) → made = calls) ∧
      let latest? := RegistryCall.latest? made
      ids.Nodup ∧ (∀ id, id ∈ ids ↔ (latest? id).isSome = true) ∧
      (∃ descriptions,
        registry.referenceSchema.field? "enum" = some (Json.texts ids) ∧
          registry.referenceSchema.field? "enumDescriptions" = some (Json.texts descriptions) ∧
          List.Forall₂ (fun id description =>
            ∃ color, latest? id = some color ∧ description = color.description) ids descriptions) ∧
      (∃ properties,
        registry.colorSchema.field? "properties" = some (.record properties) ∧
          properties.map Prod.fst = ids ∧
          ∀ id property, (id, property) ∈ properties →
            ∃ color, latest? id = some color ∧ property.Describes color) ∧
      let anew := ColorRegistry.empty.insertAll registry.toList
      registry.referenceSchema = anew.referenceSchema ∧
        registry.colorSchema = anew.colorSchema := by
  intro start registry ids
  obtain ⟨made, hmade, h⟩ : ∃ made, Interleaved allowed calls made ∧
      registry.Lists (RegistryCall.listing made) := exists_lists_run hreact next listeners w calls
  have hlatest : ∀ id color, RegistryCall.latest? made id = some color ↔
      color ∈ registry.toList ∧ color.id = id := by
    rw [h.toList_eq]
    exact fun id color => ColorRegistry.latest?_eq_some_iff
  rw [← h.toList_eq] at h
  have hanew : (ColorRegistry.empty.insertAll registry.toList).Lists registry.toList :=
    ColorRegistry.Lists.empty.insertAll h.nodup
  refine ⟨made, hmade, hmade.eq_of_silent, h.nodup, fun id => ?_,
    ⟨registry.toList.map (·.description), ?_, ?_, ?_⟩,
    ⟨registry.toList.map fun color => (color.id, color.schema), ?_, ?_, ?_⟩, ?_, ?_⟩
  · rw [Option.isSome_iff_exists, List.mem_map]
    exact exists_congr fun color => (hlatest id color).symm
  · rw [h.referenceSchema_eq]
    rfl
  · rw [h.referenceSchema_eq]
    rfl
  · rw [List.forall₂_map_left_iff, List.forall₂_map_right_iff, List.forall₂_same]
    exact fun color hmem => ⟨color, (hlatest color.id color).mpr ⟨hmem, rfl⟩, rfl⟩
  · rw [h.colorSchema_eq]
    rfl
  · rw [List.map_map]
    rfl
  · intro id property hmem
    obtain ⟨color, hcolor, heq⟩ := List.mem_map.mp hmem
    obtain ⟨rfl, rfl⟩ := Prod.mk.inj heq
    exact ⟨color, (hlatest color.id color).mpr ⟨hcolor, rfl⟩, color.schema_describes⟩
  · rw [h.referenceSchema_eq, hanew.referenceSchema_eq]
  · rw [h.colorSchema_eq, hanew.colorSchema_eq]

end

/-- A color that must be transparent and is no longer to be used is registered again as a plain one,
and another one is removed, while a listener counts what it hears of. Nothing of the two is left. -/
theorem schemas_follow_registry_replaced :
    let old : Contribution :=
      { id := "a", description := "old", defaults := {}, needsTransparency := true,
        deprecation := some "use b" }
    let plain (id description : String) : Contribution := { id, description, defaults := {} }
    let count : WatchedRegistry.Reaction Unit Nat :=
      fun _ _ _ => modify fun (registry, heard) => (registry, heard + 1)
    let calls : List RegistryCall :=
      [.register old, .register (plain "b" "gone"), .register (plain "a" "new"), .deregister "b"]
    let start : WatchedRegistry Unit := ⟨.empty, 1, [(0, ())]⟩
    let registry := ((calls.forM (RegistryCall.run count)).run (start, 0)).2.1.colors
    (∀ number listener change, ByCalls (fun _ => False) (count number listener change)) ∧
      registry.toList.map (·.id) = ["a"] ∧
      registry.referenceSchema.field? "enumDescriptions" = some (Json.texts ["new"]) ∧
      ∃ property, registry.colorSchema.field? "properties" = some (.record [("a", property)]) ∧
        property.field? "pattern" = none ∧ property.field? "deprecationMessage" = none := by
  intro old plain count calls start registry
  have hcount : ∀ number listener change,
      ByCalls (fun _ => False) (count number listener change) :=
    fun _ _ _ s => ⟨[], by simp, rfl⟩
  have hids : registry.toList.map (·.id) = ["a"] := by
    obtain ⟨made, hmade, h⟩ := exists_lists_run hcount 1 [(0, ())] 0 calls
    rw [hmade.eq_of_silent fun _ => not_false] at h
    rw [h.toList_eq]
    simp [calls, old, plain, RegistryCall.listing, RegistryCall.onList, Contribution.enterInto]
  have hlatest : RegistryCall.latest? calls "a" = some (plain "a" "new") := rfl
  obtain ⟨made, -, hsilent, -, -, ⟨descriptions, -, hdescriptions, hforall⟩,
    ⟨properties, hproperties, hnames, hdescribes⟩, -, -⟩ :=
    schemas_follow_registry hcount 1 [(0, ())] 0 calls
  obtain rfl : made = calls := hsilent fun _ => not_false
  refine ⟨hcount, hids, ?_, ?_⟩
  · rw [hids] at hforall
    rcases hforall with _ | ⟨⟨color, hcolor, rfl⟩, _ | _⟩
    obtain rfl := Option.some.inj (hlatest.symm.trans hcolor)
    exact hdescriptions
  · obtain ⟨⟨id, property⟩, rfl, rfl⟩ := List.map_eq_singleton_iff.mp (hnames.trans hids)
    obtain ⟨color, hcolor, hdescribed⟩ := hdescribes "a" property List.mem_cons_self
    obtain rfl := Option.some.inj (hlatest.symm.trans hcolor)
    exact ⟨property, hproperties, hdescribed.pattern, hdescribed.deprecation⟩

end Highlight
