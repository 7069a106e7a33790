import Highlight.Proofs.Rule.Meaning

/-!
# The numbers of a theme's colors

A theme numbers its colors while its rules are entered. Numbers 1 and 2 belong to the default
colors, which may be the same; behind them, every color that is used gets the next number at its
first use, until there are 511 (`ColorTable.Numbers`). All of this is read off one equation, which
every step keeps: the colors of the table are those that are admitted. The map in which numbers are
looked up stays in step with them (`ColorTable.InStep`).

A number that has been given out is final. New colors are put behind the others, so the number of a
color is the same in every later table (`ColorTable.number?_addAll`), and interning a color that has
one gives that number back and leaves the table alone, whether or not there is room. So a rule gets
the numbers of the final table, although it asks for them while the table grows
(`ColorTable.internAll_eq`).
-/

namespace Highlight

variable {default : Style} {used : List Color} {color : Color}

/-! ### Order of first use -/

theorem mem_otherColors :
    color ∈ otherColors default used ↔
      color ∈ used ∧ color ≠ default.foreground ∧ color ≠ default.background := by
  simp [otherColors, List.mem_eraseDups]

/-- Colors other than the default ones come in the order of their first use. -/
theorem pairwise_otherColors (default : Style) (used : List Color) :
    (otherColors default used).Pairwise fun a b => used.idxOf a < used.idxOf b := by
  induction used using List.reverseRecOn with
  | nil => exact .nil
  | append_singleton used color ih =>
      -- the first use of an earlier color is an earlier one
      have hsame : ∀ a ∈ otherColors default used,
          (used ++ [color]).idxOf a = used.idxOf a := fun a ha =>
        List.idxOf_append_of_mem (mem_otherColors.mp ha).1
      have hearlier : (otherColors default used).Pairwise fun a b =>
          (used ++ [color]).idxOf a < (used ++ [color]).idxOf b :=
        ih.imp_of_mem fun {a b} ha hb h => by rwa [hsame a ha, hsame b hb]
      rw [otherColors_concat]
      split
      · exact hearlier
      · next hnew =>
          refine List.pairwise_append.mpr ⟨hearlier, List.pairwise_singleton _ _, ?_⟩
          intro a ha b hb
          obtain rfl := List.mem_singleton.mp hb
          simp only [mem_otherColors, not_or] at hnew
          have hunused : b ∉ used := fun hmem => hnew.2.2 ⟨hmem, hnew.1, hnew.2.1⟩
          rw [hsame a ha, List.idxOf_append_of_notMem hunused]
          exact Nat.lt_add_right _ (List.idxOf_lt_length_of_mem (mem_otherColors.mp ha).1)

namespace ColorTable

variable {table : ColorTable} {number : Nat}

/-! ### What the numbers stand for -/

/-- The numbers of a table that started from the default colors, after colors were used in order. -/
structure Numbers (default : Style) (used : List Color) (table : ColorTable) : Prop where
  two_le_size : 2 ≤ table.size
  size_le : table.size ≤ 511
  foreground : table.color? 1 = some default.foreground
  background : table.color? 2 = some default.background
  /-- From 3 on a number has a color that no other number has. -/
  unique : ∀ number other color, 3 ≤ number → table.color? number = some color →
    table.color? other = some color → other = number
  mem_used : ∀ number color, 3 ≤ number → table.color? number = some color → color ∈ used
  /-- From 3 on numbers are given out in the order of first use. -/
  in_order : ∀ number later color next, 3 ≤ number → number < later →
    table.color? number = some color → table.color? later = some next →
      used.idxOf color < used.idxOf next
  /-- A color without a number was used when all numbers had been given out. -/
  complete : ∀ color ∈ used, color ∈ table.colors ∨ table.size = 511

theorem color?_succ (table : ColorTable) (i : Nat) : table.color? (i + 1) = table.colors[i]? := rfl

/-- Only the numbers in use have a color, and all of them do. -/
theorem isSome_color?_iff : (table.color? number).isSome ↔ 1 ≤ number ∧ number ≤ table.size := by
  cases number with
  | zero => simp [color?]
  | succ i =>
      rw [color?_succ, isSome_getElem?, size]
      omega

/-- The number is one of those given out, and has a color. -/
structure InUse (table : ColorTable) (number : Nat) : Prop where
  pos : 1 ≤ number
  le_size : number ≤ table.size
  isSome_color? : (table.color? number).isSome

theorem InUse.of_color? (h : table.color? number = some color) : table.InUse number where
  pos := (color?_eq_some h).1
  le_size := (color?_eq_some h).2
  isSome_color? := Option.isSome_of_eq_some h

/-- From 3 on the numbers belong to the colors that are not default ones. -/
theorem color?_of_admitted (h : table.colors = admittedOf default used) (hthree : 3 ≤ number) :
    table.color? number = ((otherColors default used).take 509)[number - 3]? := by
  obtain ⟨i, rfl⟩ := Nat.exists_eq_add_of_le' hthree
  rw [color?_succ, h]
  rfl

theorem mem_otherColors_of_color? (h : table.colors = admittedOf default used)
    (hthree : 3 ≤ number) (hcolor : table.color? number = some color) :
    color ∈ otherColors default used := by
  rw [color?_of_admitted h hthree] at hcolor
  exact List.mem_of_mem_take (List.mem_of_getElem? hcolor)

/-- Later numbers have colors that were first used later. -/
theorem idxOf_lt_of_color? (h : table.colors = admittedOf default used) {later : Nat}
    {next : Color} (hthree : 3 ≤ number) (hlater : number < later)
    (hcolor : table.color? number = some color) (hnext : table.color? later = some next) :
    used.idxOf color < used.idxOf next := by
  rw [color?_of_admitted h hthree] at hcolor
  rw [color?_of_admitted h (by omega)] at hnext
  have hpairwise := (pairwise_otherColors default used).sublist (List.take_sublist 509 _)
  obtain ⟨hi, rfl⟩ := List.getElem?_eq_some_iff.mp hcolor
  obtain ⟨hj, rfl⟩ := List.getElem?_eq_some_iff.mp hnext
  exact List.pairwise_iff_getElem.mp hpairwise _ _ hi hj (by omega)

/-- A table whose colors are those that are admitted numbers them as it should. -/
theorem numbers_of_admitted (h : table.colors = admittedOf default used) :
    table.Numbers default used := by
  have hsize : table.size = 2 + min 509 (otherColors default used).length := by
    rw [size, h, admittedOf, List.length_cons, List.length_cons, List.length_take]
    omega
  have hforeground : table.color? 1 = some default.foreground := by
    rw [color?_succ, h]
    rfl
  have hbackground : table.color? 2 = some default.background := by
    rw [color?_succ, h]
    rfl
  refine ⟨by omega, by omega, hforeground, hbackground, ?_, ?_, ?_, ?_⟩
  · intro number other color hthree hcolor hother
    obtain ⟨-, hnotForeground, hnotBackground⟩ :=
      mem_otherColors.mp (mem_otherColors_of_color? h hthree hcolor)
    have hpositive := (isSome_color?_iff.mp (Option.isSome_of_eq_some hother)).1
    -- the default colors have the first two numbers, and the others differ by their first use
    rcases Nat.lt_or_ge other 3 with hdefault | hthree'
    · obtain rfl | rfl : other = 1 ∨ other = 2 := by omega
      · exact absurd (Option.some.inj (hother.symm.trans hforeground)) hnotForeground
      · exact absurd (Option.some.inj (hother.symm.trans hbackground)) hnotBackground
    · rcases Nat.lt_trichotomy number other with hlt | heq | hgt
      · exact absurd (idxOf_lt_of_color? h hthree hlt hcolor hother) (Nat.lt_irrefl _)
      · exact heq.symm
      · exact absurd (idxOf_lt_of_color? h hthree' hgt hother hcolor) (Nat.lt_irrefl _)
  · exact fun number color hthree hcolor =>
      (mem_otherColors.mp (mem_otherColors_of_color? h hthree hcolor)).1
  · exact fun number later color next => idxOf_lt_of_color? h
  · intro color hused
    by_cases hdefault : color = default.foreground ∨ color = default.background
    · left
      rw [h, admittedOf]
      simp only [List.mem_cons]
      exact hdefault.imp_right .inl
    · rw [not_or] at hdefault
      have hmem : color ∈ otherColors default used := mem_otherColors.mpr ⟨hused, hdefault⟩
      rcases Nat.lt_or_ge (otherColors default used).length 509 with hroom | hfull
      · left
        rw [h, admittedOf, List.take_of_length_le (Nat.le_of_lt hroom)]
        exact List.mem_cons_of_mem _ (List.mem_cons_of_mem _ hmem)
      · right
        omega

/-! ### Numbers stay -/

/-- Colors are put behind the others. -/
theorem prefix_add (table : ColorTable) (color : Color) :
    table.colors <+: (table.add color).colors := by
  rcases add_cases table color with ⟨-, heq⟩ | ⟨-, -, heq⟩
  · simp only [heq, List.prefix_rfl]
  · rw [heq]
    exact List.prefix_append table.colors [color]

theorem prefix_addAll (table : ColorTable) (colors : List Color) :
    table.colors <+: (table.addAll colors).colors := by
  induction colors generalizing table with
  | nil => exact List.prefix_rfl
  | cons color colors ih => exact (table.prefix_add color).trans (ih _)

/-- The color of a number does not change as the table grows. -/
theorem color?_addAll (h : table.color? number = some color) (colors : List Color) :
    (table.addAll colors).color? number = some color := by
  cases number with
  | zero => cases h
  | succ i =>
      obtain ⟨behind, hbehind⟩ := table.prefix_addAll colors
      rw [color?_succ] at h ⊢
      rw [← hbehind, List.getElem?_append_left (List.getElem?_eq_some_iff.mp h).1]
      exact h

/-- The number of a color does not change as the table grows. -/
theorem number?_addAll (h : table.number? color = some number) (colors : List Color) :
    (table.addAll colors).number? color = some number := by
  induction colors generalizing table with
  | nil => exact h
  | cons other colors ih =>
      refine ih ?_
      rcases add_cases table other with ⟨-, heq⟩ | ⟨hnot, -, heq⟩
      · rw [heq]
        exact h
      · have hne : other ≠ color := fun heq => hnot (heq ▸ mem_of_number? h)
        rw [heq, number?_push, if_neg hne]
        exact h

/-- Of several numbers with one color, the least is the number of the color. -/
theorem InStep.number?_le (hstep : table.InStep) (h : table.number? color = some number)
    {other : Nat} (hother : table.color? other = some color) : number ≤ other := by
  obtain ⟨i, hi, rfl⟩ := Option.map_eq_some_iff.mp ((hstep color).symm.trans h)
  obtain ⟨hlt, -, hleast⟩ := List.idxOf?_eq_some_iff.mp hi
  by_contra hlater
  cases other with
  | zero => cases hother
  | succ j =>
      obtain ⟨hj, hget⟩ := List.getElem?_eq_some_iff.mp ((table.color?_succ j).symm.trans hother)
      exact hleast j (by omega) hget

/-- A color that has a number keeps it, whether or not there is room, and the table stays. -/
theorem intern_of_number? (h : table.number? color = some number) (fallback : Nat) :
    table.intern color fallback = (number, table) := by
  rw [intern, h]

/-! ### Numbers as they are given out -/

/-- Interns colors in order, each with its fallback, and gives their numbers. -/
def internAll (table : ColorTable) : List (Color × Nat) → List Nat × ColorTable
  | [] => ([], table)
  | (color, fallback) :: rest =>
      let (number, table) := table.intern color fallback
      let (numbers, table) := table.internAll rest
      (number :: numbers, table)

/-- Every number that is given out is that of the final table, or the fallback. -/
theorem internAll_eq (table : ColorTable) (requests : List (Color × Nat)) :
    table.internAll requests =
      let final := table.addAll (requests.map Prod.fst)
      (requests.map fun (color, fallback) => final.numberOr color fallback, final) := by
  induction requests generalizing table with
  | nil => rfl
  | cons request rest ih =>
      obtain ⟨color, fallback⟩ := request
      have hlater : ((table.add color).addAll (rest.map Prod.fst)).numberOr color fallback =
          (table.add color).numberOr color fallback :=
        numberOr_addAll (settledFor_add_self table color) _ fallback
      simp only [internAll, intern_fst, intern_snd, ih, ← hlater]
      rfl

end ColorTable

/-! ### Rules -/

/-- What a rule interns: its colors, each with the fallback of its field. -/
def Rule.requests (rule : Rule) : List (Color × Nat) :=
  rule.change.foreground.toList.map (·, Metadata.defaultForeground) ++
    rule.change.background.toList.map (·, Metadata.defaultBackground)

theorem map_fst_requests (rules : List Rule) :
    (rules.flatMap Rule.requests).map Prod.fst = rules.flatMap Rule.colors := by
  rw [List.map_flatMap]
  refine List.flatMap_congr fun rule _ => ?_
  simp [Rule.requests, Rule.colors, Function.comp_def]

/-- Further rules enter their colors behind those that are there. -/
theorem RuleTable.colors_ofRules_append (default : Style) (rules more : List Rule) :
    (RuleTable.ofRules default (rules ++ more)).colors =
      (RuleTable.ofRules default rules).colors.addAll (more.flatMap Rule.colors) := by
  rw [(compiled_ofRules default (rules ++ more)).colors_eq,
    (compiled_ofRules default rules).colors_eq, List.flatMap_append]
  exact List.foldl_append ..

namespace Compiled

variable {rules : List Rule} {table : RuleTable}

theorem foreground_word (hc : Compiled default rules table) (language : LanguageId)
    (scopes : String) :
    (table.word language scopes).foreground = (table.numberedStyle scopes).foreground := by
  rw [RuleTable.word, RuleTable.baseWord, Metadata.foreground_withLanguage,
    Metadata.foreground_pack, hc.mod_of_color? (hc.decodes_numberedStyle scopes).foreground]

theorem background_word (hc : Compiled default rules table) (language : LanguageId)
    (scopes : String) :
    (table.word language scopes).background = (table.numberedStyle scopes).background := by
  rw [RuleTable.word, RuleTable.baseWord, Metadata.background_withLanguage,
    Metadata.background_pack, hc.mod_of_color? (hc.decodes_numberedStyle scopes).background]

/-- A color has one number only, unless it is both default colors. -/
theorem number?_unique (hc : Compiled default rules table) {number other : Nat}
    (hnumber : table.colors.number? color = some number)
    (hcolor : table.colors.color? number = some color)
    (hother : table.colors.color? other = some color) :
    other = number ∨ (number = 1 ∧ other = 2 ∧ default.foreground = default.background) := by
  have hnumbers := ColorTable.numbers_of_admitted hc.colors_eq_admitted
  have hle := hc.inStep.number?_le hnumber hother
  have hpositive := (ColorTable.color?_eq_some hcolor).1
  rcases Nat.lt_or_ge other 3 with hdefault | hthree
  · rcases Nat.eq_or_lt_of_le hle with heq | hlt
    · exact .inl heq.symm
    · obtain ⟨rfl, rfl⟩ : number = 1 ∧ other = 2 := by omega
      have hforeground := Option.some.inj (hnumbers.foreground.symm.trans hcolor)
      have hbackground := Option.some.inj (hnumbers.background.symm.trans hother)
      exact .inr ⟨rfl, rfl, hforeground.trans hbackground.symm⟩
  · exact .inl (hnumbers.unique other number color hthree hother hcolor).symm

/-- The numbers in a word are in use. -/
theorem inUse_word (hc : Compiled default rules table) (language : LanguageId) (scopes : String) :
    table.colors.InUse (table.word language scopes).foreground ∧
      table.colors.InUse (table.word language scopes).background := by
  have hd := hc.decodes_numberedStyle scopes
  rw [hc.foreground_word, hc.background_word]
  exact ⟨.of_color? hd.foreground, .of_color? hd.background⟩

end Compiled

/-! ### The main result -/

/-- **Colors are numbered once and for all.** The colors of compiled rules are numbered as they
should be, with the map of numbers in step with them, and only numbers in use have a color. Every
number that a rule got for a color is that of the final table, or the fallback if the color has
none. A color with a number has no other one, unless it is both default colors, and whatever rules
follow, the number stays with the color and is what interning the color gives, even when the table
is full. So whatever was asked before, the numbers in a word are those of the style of its scope
path, nothing being cut off, and both are in use. -/
theorem numbers_final (default : Style) (rules : List Rule) :
    let table := RuleTable.ofRules default rules
    let colors := table.colors
    let requests := rules.flatMap Rule.requests
    colors.Numbers default (rules.flatMap Rule.colors) ∧
      colors.InStep ∧
      (∀ number, (colors.color? number).isSome ↔ 1 ≤ number ∧ number ≤ colors.size) ∧
      (ColorTable.ofDefaults default.foreground default.background).internAll requests =
        (requests.map fun (color, fallback) => colors.numberOr color fallback, colors) ∧
      (∀ color ∈ colors.colors, ∃ number, colors.number? color = some number ∧
        colors.color? number = some color ∧
        (∀ other, colors.color? other = some color →
          other = number ∨ (number = 1 ∧ other = 2 ∧ default.foreground = default.background)) ∧
        ∀ more : List Rule,
          let later := (RuleTable.ofRules default (rules ++ more)).colors
          later.color? number = some color ∧
            ∀ fallback, later.intern color fallback = (number, later)) ∧
      ∀ earlier language scopes,
        let m := ((table.remembered language scopes).run (table.memoAfter earlier)).1
        let style := table.numberedStyle scopes
        m.foreground = style.foreground ∧ m.background = style.background ∧
          colors.InUse m.foreground ∧ colors.InUse m.background := by
  intro table colors requests
  have hc : Compiled default rules table := compiled_ofRules default rules
  refine ⟨ColorTable.numbers_of_admitted hc.colors_eq_admitted, hc.inStep,
    fun _ => ColorTable.isSome_color?_iff, ?_, fun color hmem => ?_,
    fun earlier language scopes => ?_⟩
  · have hfinal : (ColorTable.ofDefaults default.foreground default.background).addAll
        (requests.map Prod.fst) = colors := by
      rw [map_fst_requests]
      exact hc.colors_eq.symm
    rw [ColorTable.internAll_eq, hfinal]
  · obtain ⟨number, hnumber⟩ := ColorTable.number?_of_mem (hc.inStep.mem_ids.mpr hmem)
    have hcolor : colors.color? number = some color := hc.inStep.color?_of_number? hnumber
    refine ⟨number, hnumber, hcolor, fun other => hc.number?_unique hnumber hcolor, fun more => ?_⟩
    intro later
    have hlater : later = colors.addAll (more.flatMap Rule.colors) :=
      RuleTable.colors_ofRules_append default rules more
    rw [hlater]
    exact ⟨ColorTable.color?_addAll hcolor _,
      ColorTable.intern_of_number? (ColorTable.number?_addAll hnumber _)⟩
  · intro m style
    have hm : m = table.word language scopes :=
      ((table.coherent_memoAfter earlier).remembered language scopes).1
    rw [hm]
    exact ⟨hc.foreground_word .., hc.background_word .., hc.inUse_word language scopes⟩

end Highlight
