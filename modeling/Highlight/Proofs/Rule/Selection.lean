import Highlight.Rule.Table
import Mathlib.Data.List.MinMax

/-!
# The longest selector of a scope

A selector applies to a scope that is equal to it or continues it behind a dot. The selectors that
apply to a scope are exactly its dotted heads, and `selectorsFor` lists them by strictly decreasing
length. Searching that list from its front therefore ends at the longest selector for which there is
anything to find (`findSome?_selectorsFor_of_longest`), and no other order of search would do: two
different selectors that apply to one scope never have the same length.
-/

namespace Highlight

/-- A selector applies to a scope that is equal to it or continues it behind a dot. -/
def Applies (selector scope : String) : Prop :=
  selector = scope ∨ selector.toList ++ ['.'] <+: scope.toList

instance (selector scope : String) : Decidable (Applies selector scope) :=
  inferInstanceAs (Decidable (_ ∨ _))

/-- The selectors of rules, in order. -/
def selectorsOfRules (rules : List Rule) : List String := rules.flatMap Rule.selectors

/-- The longest selector of rules that applies to a scope. -/
def longestSelector? (rules : List Rule) (scope : String) : Option String :=
  ((selectorsOfRules rules).filter (Applies · scope)).argmax String.length

/-! ### Dotted heads -/

theorem mem_dottedHeads {head cs : List Char} :
    head ∈ dottedHeads cs ↔ head = cs ∨ head ++ ['.'] <+: cs := by
  induction cs generalizing head with
  | nil => cases head <;> simp [dottedHeads]
  | cons c cs ih =>
      -- the empty head is there if the scope starts with a dot, and all others start with `c`
      have hlonger : head ∈ (dottedHeads cs).map (c :: ·) ↔
          ∃ rest, head = c :: rest ∧ (rest = cs ∨ rest ++ ['.'] <+: cs) := by
        simp only [List.mem_map, ih]
        exact ⟨fun ⟨rest, h, heq⟩ => ⟨rest, heq.symm, h⟩, fun ⟨rest, heq, h⟩ => ⟨rest, h, heq.symm⟩⟩
      rcases head with - | ⟨d, rest⟩
      · by_cases hc : c = '.'
        · simp [dottedHeads, hc]
        · simp [dottedHeads, hc, Ne.symm hc]
      · have hcons : d :: rest ∈ dottedHeads (c :: cs) ↔
            d :: rest ∈ (dottedHeads cs).map (c :: ·) := by
          by_cases hc : c = '.' <;> simp [dottedHeads, hc]
        rw [hcons, hlonger, List.cons_append, List.cons_prefix_cons]
        constructor
        · rintro ⟨r, heq, h⟩
          cases heq
          exact h.imp (congrArg _) fun hrest => ⟨rfl, hrest⟩
        · rintro (heq | ⟨rfl, hrest⟩)
          · cases heq
            exact ⟨_, rfl, Or.inl rfl⟩
          · exact ⟨rest, rfl, Or.inr hrest⟩

/-- Dotted heads come from the shortest on. -/
theorem dottedHeads_pairwise (cs : List Char) :
    (dottedHeads cs).Pairwise fun a b => a.length < b.length := by
  induction cs with
  | nil => exact List.pairwise_singleton _ _
  | cons c cs ih =>
      have hlonger : ((dottedHeads cs).map (c :: ·)).Pairwise fun a b => a.length < b.length := by
        rw [List.pairwise_map]
        exact ih.imp fun h => by simpa using h
      by_cases hc : c = '.'
      · rw [dottedHeads, if_pos hc, List.pairwise_cons]
        refine ⟨fun head hhead => ?_, hlonger⟩
        obtain ⟨rest, -, rfl⟩ := List.mem_map.mp hhead
        simp
      · rw [dottedHeads, if_neg hc]
        exact hlonger

/-! ### The selectors of a scope -/

/-- The selectors that are tried for a scope are those that apply to it. -/
theorem mem_selectorsFor {selector scope : String} :
    selector ∈ selectorsFor scope ↔ Applies selector scope := by
  rw [selectorsFor, List.mem_map]
  constructor
  · rintro ⟨head, hhead, rfl⟩
    rw [Applies, String.toList_ofList]
    refine (mem_dottedHeads.mp (List.mem_reverse.mp hhead)).imp_left fun heq => ?_
    rw [heq, String.ofList_toList]
  · intro happlies
    refine ⟨selector.toList, List.mem_reverse.mpr (mem_dottedHeads.mpr ?_), String.ofList_toList⟩
    exact happlies.imp_left (congrArg String.toList)

/-- They are tried from the longest on. -/
theorem selectorsFor_pairwise (scope : String) :
    (selectorsFor scope).Pairwise fun a b => b.length < a.length := by
  rw [selectorsFor, List.pairwise_map, List.pairwise_reverse]
  exact (dottedHeads_pairwise scope.toList).imp fun h => by
    simpa only [String.length_ofList] using h

/-- The search for a scope ends at the longest selector for which there is something. -/
theorem findSome?_selectorsFor_of_longest {α : Type} {f : String → Option α}
    {selector scope : String} {a : α} (happlies : Applies selector scope)
    (hfound : f selector = some a)
    (hlongest : ∀ other, Applies other scope → (f other).isSome →
      other.length ≤ selector.length) :
    (selectorsFor scope).findSome? f = some a := by
  obtain ⟨longer, shorter, hsplit⟩ := List.append_of_mem (mem_selectorsFor.mpr happlies)
  -- whatever is tried before the selector is longer than it, so there is nothing to find
  refine List.findSome?_eq_some_iff.mpr ⟨longer, selector, shorter, hsplit, hfound, ?_⟩
  intro other hother
  have hlonger : selector.length < other.length := by
    have hpairwise := selectorsFor_pairwise scope
    rw [hsplit, List.pairwise_append] at hpairwise
    exact hpairwise.2.2 other hother selector List.mem_cons_self
  have hmem : other ∈ selectorsFor scope := by
    rw [hsplit]
    exact List.mem_append_left _ hother
  cases hf : f other with
  | none => rfl
  | some b =>
      have hle := hlongest other (mem_selectorsFor.mp hmem) (by rw [hf]; rfl)
      exact absurd hle (Nat.not_le.mpr hlonger)

theorem longestSelector?_eq_none_iff {rules : List Rule} {scope : String} :
    longestSelector? rules scope = none ↔
      ∀ selector ∈ selectorsOfRules rules, ¬ Applies selector scope := by
  rw [longestSelector?, List.argmax_eq_none, List.filter_eq_nil_iff]
  simp only [decide_eq_true_eq]

/-- The search for a scope finds what there is for the longest selector of rules, if there is
something for the selectors of the rules and for nothing else. -/
theorem findSome?_selectorsFor {α : Type} {f : String → Option α} {rules : List Rule}
    (hf : ∀ selector, (f selector).isSome ↔ selector ∈ selectorsOfRules rules) (scope : String) :
    (selectorsFor scope).findSome? f = (longestSelector? rules scope).bind f := by
  cases hlongest : longestSelector? rules scope with
  | none =>
      rw [Option.bind_none, List.findSome?_eq_none_iff]
      intro selector hselector
      have hnot : selector ∉ selectorsOfRules rules := fun hmem =>
        longestSelector?_eq_none_iff.mp hlongest selector hmem (mem_selectorsFor.mp hselector)
      rw [← Option.not_isSome_iff_eq_none, hf]
      exact hnot
  | some selector =>
      obtain ⟨hmem, happlies⟩ := List.mem_filter.mp (List.argmax_mem hlongest)
      obtain ⟨a, ha⟩ := Option.isSome_iff_exists.mp ((hf selector).mpr hmem)
      rw [Option.bind_some, ha]
      refine findSome?_selectorsFor_of_longest (of_decide_eq_true happlies) ha ?_
      intro other hother hsome
      exact List.le_of_mem_argmax
        (List.mem_filter.mpr ⟨(hf other).mp hsome, decide_eq_true hother⟩) hlongest

end Highlight
