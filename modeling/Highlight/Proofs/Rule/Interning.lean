import Highlight.Rule.Table
import Mathlib.Data.List.Nodup
import Std.Data.HashMap.Lemmas

/-!
# Numbered colors

A table of colors grows at its end only, up to 511 colors. So a color that was entered, or refused
because the table was full, is *settled*: whatever is entered later, it keeps its number or stays
without one (`numberOr_add`). This lets the numbers that were given out one rule after the other be
read off the final table.

The map of numbers and the list of colors are in step (`ColorTable.InStep`): the number of a color
is that of the first position it stands at, and a color that stands nowhere has none. The default
colors are in step even if they are the same, and a color that is put at the end is one that the
map does not have, so each entry keeps them so.

Which colors have a number is described without the table (`admitted`): the two default colors and
the first 509 others, each counted at its first appearance.
-/

namespace Highlight

/-- The colors of a rule in the order in which they are numbered. -/
def Rule.colors (rule : Rule) : List Color :=
  rule.change.foreground.toList ++ rule.change.background.toList

/-- The distinct colors other than the default ones, each at its first appearance. -/
def otherColors (default : Style) (colors : List Color) : List Color :=
  (colors.filter fun c => c ≠ default.foreground ∧ c ≠ default.background).eraseDups

/-- The colors that get a number when colors are entered in order. -/
def admittedOf (default : Style) (colors : List Color) : List Color :=
  default.foreground :: default.background :: (otherColors default colors).take 509

/-- The colors that rules give a number: the default ones and the first 509 others. -/
def admitted (default : Style) (rules : List Rule) : List Color :=
  admittedOf default (rules.flatMap Rule.colors)

theorem eraseDups_concat {α : Type} [BEq α] [LawfulBEq α] (l : List α) (a : α) :
    (l ++ [a]).eraseDups = if a ∈ l then l.eraseDups else l.eraseDups ++ [a] := by
  rw [List.eraseDups_append]
  by_cases hmem : a ∈ l <;> simp [List.removeAll, List.eraseDups_cons, hmem]

/-- One more color is a new one unless it is a default color or has appeared before. -/
theorem otherColors_concat (default : Style) (colors : List Color) (color : Color) :
    otherColors default (colors ++ [color]) =
      if color = default.foreground ∨ color = default.background ∨
          color ∈ otherColors default colors then
        otherColors default colors
      else otherColors default colors ++ [color] := by
  by_cases hdefault : color = default.foreground ∨ color = default.background
  · have hnot : ¬ (color ≠ default.foreground ∧ color ≠ default.background) :=
      fun ⟨hf, hb⟩ => hdefault.elim hf hb
    rw [if_pos (hdefault.imp_right Or.inl), otherColors, List.filter_append,
      List.filter_cons_of_neg (by simpa using hnot), List.filter_nil, List.append_nil]
    rfl
  · rw [not_or] at hdefault
    rw [otherColors, List.filter_append, List.filter_cons_of_pos (by simpa using hdefault),
      List.filter_nil, eraseDups_concat]
    simp only [otherColors, List.mem_eraseDups, hdefault.1, hdefault.2, false_or]

namespace ColorTable

/-- The table after a color was entered, or found to be there, or refused. -/
def add (table : ColorTable) (color : Color) : ColorTable := (table.intern color 0).2

/-- The number of a color, or the fallback if it has none. -/
def numberOr (table : ColorTable) (color : Color) (fallback : Nat) : Nat :=
  (table.number? color).getD fallback

/-- A color has its number, or will never get one. -/
def SettledFor (table : ColorTable) (color : Color) : Prop :=
  color ∈ table.ids ∨ Metadata.maxColorIndex ≤ table.size

/-- The map gives a color the number of the first position at which it stands, and no number to a
color that stands nowhere. -/
def InStep (table : ColorTable) : Prop :=
  ∀ color, table.ids[color]? = (table.colors.idxOf? color).map (· + 1)

variable {table : ColorTable} {color : Color}

/-! ### Numbers -/

theorem number?_eq_none (hnot : color ∉ table.ids) : table.number? color = none :=
  Std.HashMap.getElem?_eq_none hnot

theorem number?_of_mem (hmem : color ∈ table.ids) :
    ∃ number, table.number? color = some number :=
  Option.isSome_iff_exists.mp (Std.HashMap.isSome_getElem?_iff_mem.mpr hmem)

theorem mem_of_number? {number : Nat} (h : table.number? color = some number) :
    color ∈ table.ids :=
  Std.HashMap.isSome_getElem?_iff_mem.mp (Option.isSome_of_eq_some h)

theorem numberOr_of_not_mem (hnot : color ∉ table.ids) (fallback : Nat) :
    table.numberOr color fallback = fallback := by
  rw [numberOr, number?_eq_none hnot, Option.getD_none]

namespace InStep

/-- The colors of the map are those of the list. -/
theorem mem_ids (h : table.InStep) : color ∈ table.ids ↔ color ∈ table.colors := by
  rw [← Std.HashMap.isSome_getElem?_iff_mem, h color, Option.isSome_map, List.isSome_idxOf?]

/-- The number of a color leads back to it. -/
theorem color?_of_number? (h : table.InStep) {number : Nat}
    (hnumber : table.number? color = some number) : table.color? number = some color := by
  obtain ⟨i, hi, rfl⟩ := Option.map_eq_some_iff.mp ((h color).symm.trans hnumber)
  obtain ⟨hlt, hget, -⟩ := List.idxOf?_eq_some_iff.mp hi
  rw [color?, if_neg (Nat.succ_ne_zero i), Nat.add_sub_cancel, List.getElem?_eq_getElem hlt, hget]

theorem color?_numberOr (h : table.InStep) (hmem : color ∈ table.ids) (fallback : Nat) :
    table.color? (table.numberOr color fallback) = some color := by
  obtain ⟨number, hnumber⟩ := number?_of_mem hmem
  rw [numberOr, hnumber, Option.getD_some]
  exact h.color?_of_number? hnumber

end InStep

/-- Only the numbers in use have a color. -/
theorem color?_eq_some {number : Nat} (h : table.color? number = some color) :
    1 ≤ number ∧ number ≤ table.size := by
  unfold color? at h
  split at h
  · cases h
  · obtain ⟨hlt, -⟩ := List.getElem?_eq_some_iff.mp h
    unfold size
    omega

/-- In a table without repetitions no two numbers have the same color. -/
theorem color?_injective (hnodup : table.colors.Nodup) {number other : Nat}
    (h : table.color? number = some color) (hother : table.color? other = some color) :
    number = other := by
  have hnumber := color?_eq_some h
  have hnumber' := color?_eq_some hother
  rw [color?, if_neg (by omega)] at h hother
  have hlt : number - 1 < table.colors.length := (List.getElem?_eq_some_iff.mp h).1
  have hsame : number - 1 = other - 1 :=
    (List.getElem?_inj hlt hnodup).mp (h.trans hother.symm)
  omega

/-! ### Entering colors -/

theorem add_of_mem (hmem : color ∈ table.ids) : table.add color = table := by
  obtain ⟨number, hnumber⟩ := number?_of_mem hmem
  simp only [add, intern, hnumber]

theorem add_of_full (hfull : Metadata.maxColorIndex ≤ table.size) : table.add color = table := by
  unfold add intern
  split
  · rfl
  · rw [if_pos hfull]

theorem add_of_fresh (hnot : color ∉ table.ids) (hroom : table.size < Metadata.maxColorIndex) :
    table.add color = table.push color := by
  simp only [add, intern, number?_eq_none hnot, if_neg (Nat.not_le.mpr hroom)]

/-- A color is there already, or the table is full, or the color is put at the end. -/
theorem add_cases (table : ColorTable) (color : Color) :
    (table.SettledFor color ∧ table.add color = table) ∨
      (color ∉ table.ids ∧ table.size < Metadata.maxColorIndex ∧
        table.add color = table.push color) := by
  by_cases hmem : color ∈ table.ids
  · exact Or.inl ⟨Or.inl hmem, add_of_mem hmem⟩
  · by_cases hroom : table.size < Metadata.maxColorIndex
    · exact Or.inr ⟨hmem, hroom, add_of_fresh hmem hroom⟩
    · exact Or.inl ⟨Or.inr (Nat.not_lt.mp hroom), add_of_full (Nat.not_lt.mp hroom)⟩

theorem intern_snd (table : ColorTable) (color : Color) (fallback : Nat) :
    (table.intern color fallback).2 = table.add color := by
  unfold add intern
  split
  · rfl
  · split <;> rfl

theorem size_push (table : ColorTable) (color : Color) :
    (table.push color).size = table.size + 1 :=
  List.length_append

theorem number?_push (table : ColorTable) (color other : Color) :
    (table.push color).number? other =
      if color = other then some (table.size + 1) else table.number? other := by
  simp [number?, push, Std.HashMap.getElem?_insert]

/-- If the default colors are the same, the first number counts. -/
theorem number?_ofDefaults (foreground background color : Color) :
    (ofDefaults foreground background).number? color =
      if foreground = color then some 1 else if background = color then some 2 else none := by
  simp only [number?, ofDefaults, Std.HashMap.getElem?_insertIfNew, Std.HashMap.getElem?_insert,
    Std.HashMap.mem_insert, Std.HashMap.not_mem_empty, Std.HashMap.getElem?_empty, beq_iff_eq,
    or_false]
  by_cases hforeground : foreground = color
  · have hold : ¬ (background = color ∧ ¬ foreground = background) :=
      fun ⟨hsame, hnew⟩ => hnew (hforeground.trans hsame.symm)
    rw [if_neg hold, if_pos hforeground, if_pos hforeground]
    rfl
  · by_cases hbackground : background = color
    · have hnew : ¬ foreground = background := fun hsame => hforeground (hsame.trans hbackground)
      rw [if_pos ⟨hbackground, hnew⟩, if_neg hforeground, if_pos hbackground]
      rfl
    · simp [hforeground, hbackground]

theorem inStep_ofDefaults (foreground background : Color) :
    (ofDefaults foreground background).InStep := by
  intro color
  rw [← number?, number?_ofDefaults]
  simp only [ofDefaults, List.idxOf?_cons, List.idxOf?_nil, beq_iff_eq]
  split_ifs <;> rfl

theorem idxOf?_push (table : ColorTable) (color other : Color) :
    (table.push color).colors.idxOf? other =
      (table.colors.idxOf? other).or (if color = other then some table.size else none) := by
  rw [push, List.idxOf?, List.findIdx?_append, List.findIdx?_singleton]
  simp only [beq_iff_eq]
  split
  · rw [Option.map_some, Nat.zero_add]
    rfl
  · rfl

/-- A new color is put at the end under the number of its position, and no other color is moved. -/
theorem InStep.push (h : table.InStep) (hnot : color ∉ table.ids) :
    (table.push color).InStep := by
  intro other
  rw [idxOf?_push, ← number?, number?_push]
  by_cases heq : color = other
  · subst heq
    have hnew : table.colors.idxOf? color = none :=
      List.idxOf?_eq_none_iff.mpr fun hmem => hnot (h.mem_ids.mpr hmem)
    rw [if_pos rfl, if_pos rfl, hnew]
    rfl
  · rw [if_neg heq, if_neg heq, Option.or_none]
    exact h other

theorem InStep.add (h : table.InStep) (color : Color) : (table.add color).InStep := by
  rcases add_cases table color with ⟨-, heq⟩ | ⟨hnot, -, heq⟩
  · rwa [heq]
  · rw [heq]
    exact h.push hnot

theorem settledFor_add_self (table : ColorTable) (color : Color) :
    (table.add color).SettledFor color := by
  rcases add_cases table color with ⟨hsettled, heq⟩ | ⟨-, -, heq⟩
  · rw [heq]
    exact hsettled
  · rw [heq]
    exact Or.inl (Std.HashMap.mem_insert_self)

theorem SettledFor.add (h : table.SettledFor color) (other : Color) :
    (table.add other).SettledFor color := by
  rcases add_cases table other with ⟨-, heq⟩ | ⟨-, -, heq⟩
  · rwa [heq]
  · rw [heq]
    refine h.imp (fun hmem => Std.HashMap.mem_insert.mpr (Or.inr hmem)) fun hfull => ?_
    rw [size_push]
    exact Nat.le_succ_of_le hfull

/-- The number of a settled color does not depend on what is entered later. -/
theorem numberOr_add (h : table.SettledFor color) (other : Color) (fallback : Nat) :
    (table.add other).numberOr color fallback = table.numberOr color fallback := by
  rcases add_cases table other with ⟨-, heq⟩ | ⟨hnot, hroom, heq⟩
  · rw [heq]
  · -- there was room, so the color has its number; a new color does not change that
    have hmem : color ∈ table.ids := h.resolve_right (Nat.not_le.mpr hroom)
    have hne : other ≠ color := fun heq => hnot (heq ▸ hmem)
    rw [heq, numberOr, number?_push, if_neg hne, numberOr]

/-- A color that is put at the end is a new one. -/
theorem InStep.nodup_add (h : table.InStep) (hnodup : table.colors.Nodup) (color : Color) :
    (table.add color).colors.Nodup := by
  rcases add_cases table color with ⟨-, heq⟩ | ⟨hnot, -, heq⟩
  · rwa [heq]
  · rw [heq]
    exact List.nodup_append_comm.mp (hnodup.cons fun hmem => hnot (h.mem_ids.mpr hmem))

/-- Interning gives the number that the color has afterwards, or the fallback. -/
theorem intern_fst (table : ColorTable) (color : Color) (fallback : Nat) :
    (table.intern color fallback).1 = (table.add color).numberOr color fallback := by
  -- interning looks the color up before it is entered, and counts what it puts at the end
  by_cases hmem : color ∈ table.ids
  · obtain ⟨number, hnumber⟩ := number?_of_mem hmem
    rw [add_of_mem hmem]
    simp only [intern, numberOr, hnumber, Option.getD_some]
  · by_cases hroom : table.size < Metadata.maxColorIndex
    · rw [add_of_fresh hmem hroom, numberOr, number?_push, if_pos rfl]
      simp only [intern, number?_eq_none hmem, if_neg (Nat.not_le.mpr hroom)]
      exact size_push table color
    · have hfull := Nat.not_lt.mp hroom
      rw [add_of_full hfull, numberOr_of_not_mem hmem]
      simp only [intern, number?_eq_none hmem, if_pos hfull]

/-! ### The admitted colors -/

/-- Entering one more color admits it if there is room. -/
theorem InStep.colors_add_of_admitted (hstep : table.InStep) {default : Style}
    {colors : List Color} (h : table.colors = admittedOf default colors) (color : Color) :
    (table.add color).colors = admittedOf default (colors ++ [color]) := by
  have hsize : table.size = 2 + min 509 (otherColors default colors).length := by
    rw [size, h, admittedOf, List.length_cons, List.length_cons, List.length_take]
    omega
  rw [admittedOf, otherColors_concat]
  by_cases hold : color = default.foreground ∨ color = default.background ∨
      color ∈ otherColors default colors
  · rw [if_pos hold, ← admittedOf, ← h]
    rcases add_cases table color with ⟨-, heq⟩ | ⟨hnot, hroom, -⟩
    · rw [heq]
    · -- the color was not taken over although it appeared, so the table was full
      have htake : (otherColors default colors).take 509 = otherColors default colors :=
        List.take_of_length_le (by simp only [Metadata.maxColorIndex] at hroom; omega)
      refine absurd (hstep.mem_ids.mpr ?_) hnot
      rw [h, admittedOf, htake]
      simpa using hold
  · rw [if_neg hold]
    rcases add_cases table color with ⟨hsettled, heq⟩ | ⟨-, hroom, heq⟩
    · -- the color was refused although it is new, so the first 509 were there already
      have hnot : color ∉ table.ids := by
        rw [hstep.mem_ids, h, admittedOf]
        simp only [List.mem_cons, not_or] at hold ⊢
        exact ⟨hold.1, hold.2.1, fun hmem => hold.2.2 (List.mem_of_mem_take hmem)⟩
      have hfull := hsettled.resolve_left hnot
      have hlength : 509 ≤ (otherColors default colors).length := by
        simp only [Metadata.maxColorIndex] at hfull
        omega
      rw [heq, h, admittedOf, List.take_append_of_le_length hlength]
    · have hlength : (otherColors default colors).length < 509 := by
        simp only [Metadata.maxColorIndex] at hroom
        omega
      have hcolors : (table.push color).colors = table.colors ++ [color] := rfl
      rw [heq, hcolors, h, admittedOf, List.take_of_length_le (Nat.le_of_lt hlength),
        List.take_of_length_le (by simp; omega)]
      rfl

/-- Enters colors in order. -/
def addAll (table : ColorTable) (colors : List Color) : ColorTable := colors.foldl add table

/-- The map and the list stay in step. -/
theorem InStep.addAll (h : table.InStep) (colors : List Color) : (table.addAll colors).InStep :=
  List.foldlRecOn (motive := InStep) colors ColorTable.add h fun _ htable color _ =>
    htable.add color

theorem InStep.colors_addAll_of_admitted (hstep : table.InStep) {default : Style}
    {before : List Color} (h : table.colors = admittedOf default before) (colors : List Color) :
    (table.addAll colors).colors = admittedOf default (before ++ colors) := by
  induction colors generalizing table before with
  | nil => rw [List.append_nil]; exact h
  | cons color colors ih =>
      have hnext := ih (hstep.add color) (hstep.colors_add_of_admitted h color)
      rwa [List.append_assoc, List.singleton_append] at hnext

theorem InStep.nodup_addAll (hstep : table.InStep) (hnodup : table.colors.Nodup)
    (colors : List Color) : (table.addAll colors).colors.Nodup := by
  induction colors generalizing table with
  | nil => exact hnodup
  | cons color colors ih => exact ih (hstep.add color) (hstep.nodup_add hnodup color)

theorem SettledFor.addAll (h : table.SettledFor color) (colors : List Color) :
    (table.addAll colors).SettledFor color := by
  induction colors generalizing table with
  | nil => exact h
  | cons other colors ih => exact ih (h.add other)

theorem numberOr_addAll (h : table.SettledFor color) (colors : List Color) (fallback : Nat) :
    (table.addAll colors).numberOr color fallback = table.numberOr color fallback := by
  induction colors generalizing table with
  | nil => rfl
  | cons other colors ih => exact (ih (h.add other)).trans (numberOr_add h other fallback)

theorem map_numberOr_addAll {color : Option Color} (h : ∀ c ∈ color, table.SettledFor c)
    (colors : List Color) (fallback : Nat) :
    color.map ((table.addAll colors).numberOr · fallback) =
      color.map (table.numberOr · fallback) := by
  cases color with
  | none => rfl
  | some c => exact congrArg some (numberOr_addAll (h c rfl) colors fallback)

theorem settledFor_addAll_of_mem {colors : List Color} (hmem : color ∈ colors) :
    (table.addAll colors).SettledFor color := by
  induction colors generalizing table with
  | nil => cases hmem
  | cons other colors ih =>
      rcases List.mem_cons.mp hmem with rfl | hmem
      · exact (settledFor_add_self table color).addAll colors
      · exact ih hmem

/-- A color that may be missing gets the number that it has afterwards. -/
theorem internOption_eq (table : ColorTable) (color : Option Color) (fallback : Nat) :
    table.internOption color fallback =
      (color.map ((table.addAll color.toList).numberOr · fallback),
        table.addAll color.toList) := by
  cases color with
  | none => rfl
  | some color =>
      simp only [internOption, Option.map_some, Option.toList_some, addAll, List.foldl_cons,
        List.foldl_nil, intern_fst, intern_snd]

end ColorTable

end Highlight
