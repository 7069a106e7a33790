import Highlight.Proofs.Rule.Meaning

/-!
# Comma lists of scopes

A rule on a comma list does what one rule for each of its parts does, all with the same change. The
list is cut at its commas, so its selectors are those of the parts, in order, and the change is
merged into the same selectors one after the other. The rules for the parts also ask for the same
colors again and again. A color is settled once it was entered, so entering it again leaves the
table of colors alone (`ColorTable.addAll_addAll_self`), also where the table is full and the color
was refused. Either way the rules are compiled into the same table.
-/

namespace Highlight

/-- A rule on the comma list of scopes. -/
def Rule.joined (scopes : List String) (change : StyleOverride) : Rule :=
  ⟨",".intercalate scopes, change⟩

/-- A rule for each scope, all with the same change. -/
def Rule.each (scopes : List String) (change : StyleOverride) : List Rule :=
  scopes.map fun scope => ⟨scope, change⟩

/-! ### Selectors -/

theorem piecesAt_append_comma (left right : String) :
    Text.piecesAt ',' (left ++ "," ++ right) =
      Text.piecesAt ',' left ++ Text.piecesAt ',' right := by
  have hcomma : (left ++ "," ++ right).toList = left.toList ++ ',' :: right.toList := by
    simp [String.toList_append]
  rw [Text.piecesAt, hcomma, Text.pieces_append_sep rfl, List.map_append]
  rfl

theorem selectorsOf_append_comma (left right : String) :
    selectorsOf (left ++ "," ++ right) = selectorsOf left ++ selectorsOf right := by
  rw [selectorsOf, piecesAt_append_comma, List.filterMap_append]
  rfl

/-! ### Colors -/

namespace ColorTable

variable {table : ColorTable} {color : Color}

theorem SettledFor.add_self (h : table.SettledFor color) : table.add color = table :=
  h.elim add_of_mem add_of_full

theorem addAll_of_settledFor {colors : List Color} (h : ∀ color ∈ colors, table.SettledFor color) :
    table.addAll colors = table := by
  induction colors with
  | nil => rfl
  | cons color colors ih =>
      have hfirst : table.add color = table := (h color List.mem_cons_self).add_self
      rw [addAll, List.foldl_cons, hfirst]
      exact ih fun other hother => h other (List.mem_cons_of_mem _ hother)

/-- Entering colors again changes nothing. -/
theorem addAll_addAll_self (table : ColorTable) (colors : List Color) :
    (table.addAll colors).addAll colors = table.addAll colors :=
  addAll_of_settledFor fun _ hmem => settledFor_addAll_of_mem hmem

end ColorTable

/-! ### Tables -/

namespace RuleTable

/-- A rule on two lists with a comma between them is a rule on each of them. -/
theorem addRule_append_comma (table : RuleTable) (left right : String) (change : StyleOverride) :
    table.addRule ⟨left ++ "," ++ right, change⟩ =
      (table.addRule ⟨left, change⟩).addRule ⟨right, change⟩ := by
  have hcolors : Rule.colors ⟨right, change⟩ = Rule.colors ⟨left, change⟩ := rfl
  have hjoined : Rule.colors ⟨left ++ "," ++ right, change⟩ = Rule.colors ⟨left, change⟩ := rfl
  -- the second rule asks for the colors that the first one has just entered
  simp only [addRule_eq, hcolors, hjoined, ColorTable.addAll_addAll_self, Rule.selectors,
    selectorsOf_append_comma, List.foldl_append]

theorem addRule_joined (table : RuleTable) {scopes : List String} (hscopes : scopes ≠ [])
    (change : StyleOverride) :
    table.addRule (.joined scopes change) = (Rule.each scopes change).foldl addRule table := by
  induction scopes generalizing table with
  | nil => exact absurd rfl hscopes
  | cons scope scopes ih =>
      cases scopes with
      | nil =>
          rw [Rule.joined, String.intercalate_singleton]
          rfl
      | cons next scopes =>
          have hrest := ih (table.addRule ⟨scope, change⟩) (List.cons_ne_nil next scopes)
          rw [Rule.joined, String.intercalate_cons_cons, addRule_append_comma]
          exact hrest

/-- **A comma list is compiled like its parts.** Wherever the rule stands, a rule on a comma list
and one rule for each of its parts leave the same table. -/
theorem ofRules_joined (default : Style) (before after : List Rule) {scopes : List String}
    (hscopes : scopes ≠ []) (change : StyleOverride) :
    ofRules default (before ++ Rule.joined scopes change :: after) =
      ofRules default (before ++ Rule.each scopes change ++ after) := by
  simp only [ofRules, List.foldl_append, List.foldl_cons]
  rw [addRule_joined _ hscopes]

end RuleTable

end Highlight
