import Highlight.Proofs.Rule.Meaning

/-!
# The search for the longest selector

A matcher looks up the whole scope first. As long as there is nothing to find and a dot is left, it
goes on with the text in front of the last dot (`RuleTable.Search`). Each round drops a dot, so the
search ends, and it is the one search that the table makes (`Search.eq_change?`): the texts looked
up are the selectors of the scope from the longest on, because the selectors of a scope are the
scope and the selectors of what it is cut to (`selectorsFor_of_cut`).

Whether a selector applies is told by the character behind it. A selector that ends inside of a
segment is not looked up at all, so it makes no difference what the table has for it.
-/

namespace Highlight

/-! ### Cutting before the last dot -/

/-- What stands in front of the last dot, if there is a dot. -/
def beforeLastDot? : List Char → Option (List Char)
  | [] => none
  | c :: cs =>
    match beforeLastDot? cs with
    | some front => some (c :: front)
    | none => if c = '.' then some [] else none

/-- A candidate cut before its last dot. -/
def cut? (candidate : String) : Option String :=
  (beforeLastDot? candidate.toList).map String.ofList

theorem beforeLastDot?_eq_none {cs : List Char} : beforeLastDot? cs = none ↔ '.' ∉ cs := by
  induction cs with
  | nil => simp [beforeLastDot?]
  | cons c cs ih =>
      rw [beforeLastDot?, List.mem_cons, not_or, ← ih]
      cases beforeLastDot? cs with
      | some front => simp
      | none => simp [eq_comm]

/-- There is no dot behind the last one. -/
theorem beforeLastDot?_eq_some {cs front : List Char} (h : beforeLastDot? cs = some front) :
    ∃ back, cs = front ++ '.' :: back ∧ '.' ∉ back := by
  induction cs generalizing front with
  | nil => cases h
  | cons c cs ih =>
      rw [beforeLastDot?] at h
      cases hrest : beforeLastDot? cs with
      | some rest =>
          rw [hrest] at h
          obtain rfl : c :: rest = front := Option.some.inj h
          obtain ⟨back, hcs, hback⟩ := ih hrest
          exact ⟨back, congrArg (c :: ·) hcs, hback⟩
      | none =>
          rw [hrest] at h
          obtain ⟨rfl, hnil⟩ := Option.ite_none_right_eq_some.mp h
          obtain rfl : [] = front := Option.some.inj hnil
          exact ⟨cs, rfl, beforeLastDot?_eq_none.mp hrest⟩

/-! ### The selectors of a scope, one after the other -/

theorem dottedHeads_of_not_mem {cs : List Char} (hnot : '.' ∉ cs) : dottedHeads cs = [cs] := by
  induction cs with
  | nil => rfl
  | cons c cs ih =>
      obtain ⟨hc, hcs⟩ := not_or.mp (List.mem_cons.not.mp hnot)
      simp [dottedHeads, ih hcs, Ne.symm hc]

theorem dottedHeads_append_dot (front back : List Char) :
    dottedHeads (front ++ '.' :: back) =
      dottedHeads front ++ (dottedHeads back).map (front ++ '.' :: ·) := by
  induction front with
  | nil => simp [dottedHeads]
  | cons c front ih =>
      by_cases hc : c = '.' <;> simp [dottedHeads, ih, hc]

theorem selectorsFor_of_cut {scope shorter : String} (hcut : cut? scope = some shorter) :
    selectorsFor scope = scope :: selectorsFor shorter := by
  obtain ⟨front, hfront, rfl⟩ := Option.map_eq_some_iff.mp hcut
  obtain ⟨back, hscope, hback⟩ := beforeLastDot?_eq_some hfront
  have hheads : dottedHeads scope.toList = dottedHeads front ++ [scope.toList] := by
    rw [hscope, dottedHeads_append_dot, dottedHeads_of_not_mem hback, List.map_singleton]
  simp [selectorsFor, hheads]

theorem selectorsFor_of_not_cut {scope : String} (hcut : cut? scope = none) :
    selectorsFor scope = [scope] := by
  have hnot := beforeLastDot?_eq_none.mp (Option.map_eq_none_iff.mp hcut)
  simp [selectorsFor, dottedHeads_of_not_mem hnot]

/-- How many dots there are in a text. -/
def dots (s : String) : Nat := s.toList.count '.'

/-- Cutting drops one dot. -/
theorem dots_of_cut {scope shorter : String} (hcut : cut? scope = some shorter) :
    dots scope = dots shorter + 1 := by
  obtain ⟨front, hfront, rfl⟩ := Option.map_eq_some_iff.mp hcut
  obtain ⟨back, hscope, hback⟩ := beforeLastDot?_eq_some hfront
  simp [dots, hscope, List.count_eq_zero.mpr hback]

namespace RuleTable

variable {table : RuleTable}

/-! ### The search -/

/-- The search from a candidate on: how many candidates are looked up, and what is found. -/
inductive Search (table : RuleTable) : String → Nat → Option NumberedOverride → Prop
  /-- There are changes for the candidate. -/
  | found {candidate : String} {change : NumberedOverride}
      (hfound : table.changes[candidate]? = some change) : Search table candidate 1 (some change)
  /-- There are none, and there is no dot to cut at. -/
  | missed {candidate : String} (hnone : table.changes[candidate]? = none)
      (hcut : cut? candidate = none) : Search table candidate 1 none
  /-- There are none, so the search goes on with what is in front of the last dot. -/
  | cut {candidate shorter : String} {rounds : Nat} {answer : Option NumberedOverride}
      (hnone : table.changes[candidate]? = none) (hcut : cut? candidate = some shorter)
      (hrest : Search table shorter rounds answer) : Search table candidate (rounds + 1) answer

/-- The search finds what the table has for the scope. -/
theorem Search.eq_change? {scope : String} {rounds : Nat} {answer : Option NumberedOverride}
    (h : table.Search scope rounds answer) : answer = table.change? scope := by
  induction h with
  | @found candidate change hfound =>
      -- the candidate is the first of its selectors, cut or not
      cases hcut : cut? candidate with
      | some shorter => rw [change?, selectorsFor_of_cut hcut, List.findSome?_cons, hfound]
      | none => rw [change?, selectorsFor_of_not_cut hcut, List.findSome?_cons, hfound]
  | missed hnone hcut =>
      rw [change?, selectorsFor_of_not_cut hcut, List.findSome?_cons, hnone, List.findSome?_nil]
  | cut hnone hcut _ ih =>
      rw [ih, change?, change?, selectorsFor_of_cut hcut, List.findSome?_cons, hnone]

theorem Search.rounds_le {scope : String} {rounds : Nat} {answer : Option NumberedOverride}
    (h : table.Search scope rounds answer) : rounds ≤ dots scope + 1 := by
  induction h with
  | found hfound => exact Nat.le_add_left ..
  | missed hnone hcut => exact Nat.le_add_left ..
  | cut hnone hcut _ ih =>
      rw [dots_of_cut hcut]
      exact Nat.succ_le_succ ih

/-- The search ends. -/
theorem exists_search (table : RuleTable) (scope : String) :
    ∃ rounds answer, table.Search scope rounds answer := by
  induction hdots : dots scope using Nat.strongRecOn generalizing scope with
  | ind n ih =>
      cases hchange : table.changes[scope]? with
      | some change => exact ⟨1, some change, .found hchange⟩
      | none =>
          cases hcut : cut? scope with
          | none => exact ⟨1, none, .missed hchange hcut⟩
          | some shorter =>
              have hfewer : dots shorter < n := by
                rw [← hdots, dots_of_cut hcut]
                exact Nat.lt_succ_self _
              obtain ⟨rounds, answer, hrest⟩ := ih _ hfewer shorter rfl
              exact ⟨rounds + 1, answer, .cut hchange hcut hrest⟩

/-! ### The longest selector -/

/-- The longest selector of a scope that the table has changes for. -/
structure IsLongest (table : RuleTable) (scope selector : String) : Prop where
  mem : selector ∈ table.changes
  applies : Applies selector scope
  longer : ∀ other ∈ table.changes, Applies other scope → other ≠ selector →
    other.length < selector.length

theorem isLongest_of_change? {scope : String} {change : NumberedOverride}
    (hchange : table.change? scope = some change) :
    ∃ selector, table.IsLongest scope selector ∧ table.changes[selector]? = some change := by
  obtain ⟨longer, selector, shorter, hsplit, hfound, hnone⟩ :=
    List.findSome?_eq_some_iff.mp hchange
  have hmem : selector ∈ selectorsFor scope := by simp [hsplit]
  have hpairwise := selectorsFor_pairwise scope
  rw [hsplit, List.pairwise_append, List.pairwise_cons] at hpairwise
  refine ⟨selector, ⟨?_, mem_selectorsFor.mp hmem, ?_⟩, hfound⟩
  · rw [Std.HashMap.mem_iff_isSome_getElem?, hfound]
    rfl
  · -- whatever applies and has changes was not looked up before, so it is shorter
    intro other hother happlies hne
    rw [Std.HashMap.mem_iff_isSome_getElem?] at hother
    have hlisted := mem_selectorsFor.mpr happlies
    rw [hsplit, List.mem_append, List.mem_cons] at hlisted
    rcases hlisted with hlonger | rfl | hshorter
    · rw [hnone other hlonger] at hother
      cases hother
    · exact absurd rfl hne
    · exact hpairwise.2.1.1 other hshorter

theorem change?_eq_some_iff {scope : String} {change : NumberedOverride} :
    table.change? scope = some change ↔
      ∃ selector, table.IsLongest scope selector ∧ table.changes[selector]? = some change := by
  refine ⟨isLongest_of_change?, fun ⟨selector, hlongest, hfound⟩ => ?_⟩
  refine findSome?_selectorsFor_of_longest hlongest.applies hfound fun other happlies hother => ?_
  by_cases heq : other = selector
  · rw [heq]
  · exact Nat.le_of_lt (hlongest.longer other (Std.HashMap.isSome_getElem?_iff_mem.mp hother)
      happlies heq)

theorem change?_eq_none_iff {scope : String} :
    table.change? scope = none ↔ ∀ selector ∈ table.changes, ¬ Applies selector scope := by
  rw [change?, List.findSome?_eq_none_iff]
  constructor
  · intro hnone selector hmem happlies
    rw [Std.HashMap.mem_iff_isSome_getElem?, hnone selector (mem_selectorsFor.mpr happlies)] at hmem
    cases hmem
  · intro hnone selector hmem
    rw [← Option.not_isSome_iff_eq_none, Std.HashMap.isSome_getElem?_iff_mem]
    exact fun hselector => hnone selector hselector (mem_selectorsFor.mp hmem)

/-! ### Selectors that do not apply -/

/-- What the table has for a selector that does not apply makes no difference. -/
theorem change?_insert_of_not_applies {scope selector : String}
    (hnot : ¬ Applies selector scope) (change : NumberedOverride) :
    ({ table with changes := table.changes.insert selector change } : RuleTable).change? scope =
      table.change? scope := by
  rw [change?, change?, ← List.head?_filterMap, ← List.head?_filterMap]
  refine congrArg List.head? (List.filterMap_congr fun other hother => ?_)
  have hne : selector ≠ other := fun heq => hnot (heq ▸ mem_selectorsFor.mp hother)
  rw [Std.HashMap.getElem?_insert, if_neg (by simpa using hne)]

end RuleTable

/-- A selector that ends inside of a segment does not apply. -/
theorem not_applies_of_next {selector scope : String} {c : Char} {rest : List Char}
    (hscope : scope.toList = selector.toList ++ c :: rest) (hc : c ≠ '.') :
    ¬ Applies selector scope := by
  rintro (rfl | hdot)
  · simpa using congrArg List.length hscope
  · rw [hscope, List.prefix_append_right_inj, List.cons_prefix_cons] at hdot
    exact hc hdot.1.symm

theorem mem_changes_ofRules (default : Style) (rules : List Rule) (selector : String) :
    selector ∈ (RuleTable.ofRules default rules).changes ↔ selector ∈ selectorsOfRules rules := by
  rw [Std.HashMap.mem_iff_isSome_getElem?, (compiled_ofRules default rules).changes_eq]
  by_cases hmem : selector ∈ selectorsOfRules rules <;> simp [hmem]

/-! ### The main result -/

/-- **The search finds the longest selector.** Whatever the table and the scope are, the search
ends, after one round more than the scope has dots at the latest, with the one answer that the table
gives: the changes of the longest selector that is the scope or is continued by it behind a dot, or
nothing if there is no such selector. A selector that is followed by anything but a dot does not
apply and could as well be missing or have other changes. In a table of rules the selectors with
changes are those of the rules. -/
theorem search_longest (table : RuleTable) (scope : String) :
    (∃ rounds, table.Search scope rounds (table.change? scope)) ∧
      (∀ rounds answer, table.Search scope rounds answer →
        rounds ≤ dots scope + 1 ∧ answer = table.change? scope) ∧
      (∀ change, table.change? scope = some change ↔
        ∃ selector, table.IsLongest scope selector ∧ table.changes[selector]? = some change) ∧
      (table.change? scope = none ↔ ∀ selector ∈ table.changes, ¬ Applies selector scope) ∧
      (∀ selector c rest, scope.toList = selector.toList ++ c :: rest → c ≠ '.' →
        ¬ Applies selector scope ∧
          ∀ change, ({ table with changes := table.changes.insert selector change } :
            RuleTable).change? scope = table.change? scope) ∧
      ∀ default rules selector, selector ∈ (RuleTable.ofRules default rules).changes ↔
        selector ∈ selectorsOfRules rules := by
  obtain ⟨rounds, answer, hsearch⟩ := table.exists_search scope
  refine ⟨⟨rounds, hsearch.eq_change? ▸ hsearch⟩, fun rounds answer h => ?_,
    fun change => RuleTable.change?_eq_some_iff, RuleTable.change?_eq_none_iff, ?_,
    mem_changes_ofRules⟩
  · exact ⟨h.rounds_le, h.eq_change?⟩
  · intro selector c rest hscope hc
    have hnot := not_applies_of_next hscope hc
    exact ⟨hnot, RuleTable.change?_insert_of_not_applies hnot⟩

/-- Selectors of which one ends inside of a segment, and scopes with an empty segment in the middle
and in front. -/
theorem search_longest_segments :
    let rules : List Rule :=
      [⟨"string.regexp, str", ⟨some .white, none, none⟩⟩,
        ⟨"source string", ⟨none, none, some .bold⟩⟩]
    let table := RuleTable.ofRules ⟨.white, .black, .none⟩ rules
    table.IsLongest "string..regexp" "string" ∧
      (table.change? "string..regexp").isSome ∧
      ("string..regexp".toList = "str".toList ++ 'i' :: "ng..regexp".toList ∧
        ¬ Applies "str" "string..regexp") ∧
      table.change? ".string" = none := by
  intro rules table
  obtain ⟨-, -, hsome, -, hnext, hmem⟩ := search_longest table "string..regexp"
  obtain ⟨-, -, -, hnone, -, -⟩ := search_longest table ".string"
  have honly : ∀ selector ∈ selectorsOfRules rules, Applies selector "string..regexp" →
      selector = "string" := by decide
  have hlongest : table.IsLongest "string..regexp" "string" := by
    refine ⟨(hmem ..).mpr (by decide), by decide, fun other hother happlies hne => ?_⟩
    exact absurd (honly other ((hmem ..).mp hother) happlies) hne
  have hinside : "string..regexp".toList = "str".toList ++ 'i' :: "ng..regexp".toList := by decide
  refine ⟨hlongest, ?_, ⟨hinside, (hnext _ _ _ hinside (by decide)).1⟩, ?_⟩
  · obtain ⟨change, hchange⟩ := Option.isSome_iff_exists.mp
      (Std.HashMap.mem_iff_isSome_getElem?.mp hlongest.mem)
    rw [(hsome change).mpr ⟨_, hlongest, hchange⟩]
    rfl
  · have hother : ∀ selector ∈ selectorsOfRules rules, ¬ Applies selector ".string" := by decide
    exact hnone.mpr fun selector hselector => hother selector ((hmem ..).mp hselector)

end Highlight
