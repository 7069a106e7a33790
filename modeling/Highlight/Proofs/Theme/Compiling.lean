import Highlight.Theme.Compile

/-!
# What compiling a theme document gives

Compiling reads texts as colors, in one order: those of the colors by ascending identifier, then
those of the rules one after the other, the foreground of each before its background. It ends at the
first text that is no color, with the fault of that text, and for no other reason. Each step is
known by the texts it reads and by what it leaves if all of them are colors; steps that follow one
another read their texts one after the other (`faultOf_bind`), and so do the two loops
(`faultOf_foldlM`).
-/

namespace Highlight

/-! ### Faults -/

/-- The fault that a computation ends with. -/
def faultOf {α : Type} : Except Fault α → Option Fault
  | .ok _ => none
  | .error fault => some fault

/-- The fault of the first text that is no color. -/
def firstFault? (texts : List String) : Option Fault :=
  texts.findSome? fun s => faultOf (Color.parse s)

theorem firstFault?_append (texts others : List String) :
    firstFault? (texts ++ others) = (firstFault? texts).or (firstFault? others) :=
  List.findSome?_append

section

variable {α β : Type}

@[simp] theorem faultOf_map (f : α → β) (x : Except Fault α) : faultOf (f <$> x) = faultOf x := by
  cases x <;> rfl

@[simp] theorem faultOf_eq_some {x : Except Fault α} {fault : Fault} :
    faultOf x = some fault ↔ x = .error fault := by
  cases x <;> simp [faultOf]

@[simp] theorem faultOf_eq_none {x : Except Fault α} : faultOf x = none ↔ ∃ a, x = .ok a := by
  cases x <;> simp [faultOf]

theorem faultOf_bind {x : Except Fault α} {f : α → Except Fault β} {texts others : List String}
    (hx : faultOf x = firstFault? texts)
    (hf : ∀ a, x = .ok a → faultOf (f a) = firstFault? others) :
    faultOf (x >>= f) = firstFault? (texts ++ others) := by
  rw [firstFault?_append, ← hx]
  cases x with
  | error fault => rfl
  | ok a => exact hf a rfl

/-- A loop reads the texts of its steps one after the other. -/
theorem faultOf_foldlM {step : α → β → Except Fault α} {texts : β → List String}
    (hstep : ∀ a b, faultOf (step a b) = firstFault? (texts b)) (l : List β) (a : α) :
    faultOf (l.foldlM step a) = firstFault? (l.flatMap texts) := by
  induction l generalizing a with
  | nil => rfl
  | cons b l ih =>
      rw [List.foldlM_cons, List.flatMap_cons]
      exact faultOf_bind (hstep a b) fun a _ => ih a

theorem bind_eq_ok {x : Except Fault α} {f : α → Except Fault β} {b : β}
    (h : x >>= f = .ok b) : ∃ a, x = .ok a ∧ f a = .ok b := by
  cases x with
  | error fault => cases h
  | ok a => exact ⟨a, rfl, h⟩

end

/-! ### Settings -/

/-- The color that a setting states, if it is there, is not inherited and is a color. -/
def statedColor? : Option String → Option Color
  | none => none
  | some s => if s = "inherit" then none else (Color.parse s).toOption

namespace RuleSettings

/-- The texts of settings that have to be colors. -/
def colorTexts (settings : RuleSettings) : List String :=
  (settings.foregroundText.toList ++ settings.backgroundText.toList).filter (· ≠ "inherit")

/-- The changes that settings state. -/
def stated (settings : RuleSettings) : StyleOverride where
  foreground := statedColor? settings.foregroundText
  background := statedColor? settings.backgroundText
  fontStyle := settings.fontStyle.map FontStyle.ofText

end RuleSettings

theorem filter_inherit_of_ne {s : String} (hs : s ≠ "inherit") :
    (some s).filter (· != "inherit") = some s := by
  simp [Option.filter_some, hs]

theorem faultOf_parseOption (text : Option String) :
    faultOf (Color.parseOption (text.filter (· != "inherit"))) =
      firstFault? (text.toList.filter (· ≠ "inherit")) := by
  cases text with
  | none => rfl
  | some s =>
      by_cases hinherit : s = "inherit"
      · subst hinherit
        rfl
      · rw [filter_inherit_of_ne hinherit]
        simp [hinherit, Color.parseOption, firstFault?]

theorem parseOption_eq_ok {text : Option String} {color : Option Color}
    (h : Color.parseOption (text.filter (· != "inherit")) = .ok color) :
    color = statedColor? text := by
  cases text with
  | none => exact (Except.ok.inj h).symm
  | some s =>
      by_cases hinherit : s = "inherit"
      · subst hinherit
        exact (Except.ok.inj h).symm
      · rw [filter_inherit_of_ne hinherit, Color.parseOption] at h
        rw [statedColor?, if_neg hinherit]
        cases hparse : Color.parse s with
        | error fault =>
            rw [hparse] at h
            cases h
        | ok c =>
            rw [hparse] at h
            exact (Except.ok.inj h).symm

namespace RuleSettings

theorem faultOf_compile (settings : RuleSettings) :
    faultOf settings.compile = firstFault? settings.colorTexts := by
  rw [colorTexts, List.filter_append]
  refine faultOf_bind (faultOf_parseOption _) fun foreground _ => ?_
  rw [← List.append_nil (List.filter ..)]
  exact faultOf_bind (faultOf_parseOption _) fun background _ => rfl

theorem compile_eq_ok {settings : RuleSettings} {change : StyleOverride}
    (h : settings.compile = .ok change) : change = settings.stated := by
  obtain ⟨foreground, hforeground, h⟩ := bind_eq_ok h
  obtain ⟨background, hbackground, h⟩ := bind_eq_ok h
  obtain rfl := Except.ok.inj h
  rw [parseOption_eq_ok hforeground, parseOption_eq_ok hbackground]
  rfl

end RuleSettings

/-! ### Colors and rules of a document -/

namespace Theme

variable {theme after : Theme}

theorem faultOf_addColor (theme : Theme) (entry : String × String) :
    faultOf (theme.addColor entry) = firstFault? [entry.2] := by
  rw [addColor, firstFault?, List.findSome?_singleton]
  cases Color.parse entry.2 <;> rfl

theorem addColor_eq_ok {entry : String × String} (h : theme.addColor entry = .ok after) :
    ∃ color, Color.parse entry.2 = .ok color ∧ after = theme.withColor entry.1 color := by
  obtain ⟨color, hcolor, h⟩ := bind_eq_ok h
  exact ⟨color, hcolor, (Except.ok.inj h).symm⟩

/-- What a theme is with a rule of a document, all its colors being colors. -/
def withDocumentRule (theme : Theme) (rule : RuleDocument) : Theme :=
  if rule.scopes.isEmpty then { theme with baseline := rule.settings.stated }
  else { theme with rules := theme.rules ++ rule.scopes.map (⟨·, rule.settings.stated⟩) }

theorem faultOf_addRule (theme : Theme) (rule : RuleDocument) :
    faultOf (theme.addRule rule) = firstFault? rule.settings.colorTexts := by
  rw [← List.append_nil rule.settings.colorTexts]
  refine faultOf_bind rule.settings.faultOf_compile fun change _ => ?_
  split <;> rfl

theorem addRule_eq_ok {rule : RuleDocument} (h : theme.addRule rule = .ok after) :
    after = theme.withDocumentRule rule := by
  obtain ⟨change, hchange, h⟩ := bind_eq_ok h
  obtain rfl := RuleSettings.compile_eq_ok hchange
  rw [withDocumentRule]
  split at h
  · next hempty =>
      rw [if_pos hempty]
      exact (Except.ok.inj h).symm
  · next hscopes =>
      rw [if_neg hscopes]
      exact (Except.ok.inj h).symm

/-- The loop over the colors defines each of them, and nothing else changes. -/
theorem foldlM_addColor_eq_ok {entries : List (String × String)}
    (hnodup : (entries.map Prod.fst).Nodup) (h : entries.foldlM addColor theme = .ok after) :
    after = { theme with colors := after.colors } ∧
      (∀ entry ∈ entries, ∃ color, Color.parse entry.2 = .ok color ∧
        after.colors[entry.1]? = some color) ∧
      ∀ id, id ∉ entries.map Prod.fst → after.colors[id]? = theme.colors[id]? := by
  induction entries generalizing theme with
  | nil =>
      obtain rfl := Except.ok.inj h
      simp
  | cons entry rest ih =>
      rw [List.foldlM_cons] at h
      obtain ⟨next, hnext, hrest⟩ := bind_eq_ok h
      obtain ⟨color, hcolor, rfl⟩ := addColor_eq_ok hnext
      rw [List.map_cons, List.nodup_cons] at hnodup
      obtain ⟨hafter, hentries, hothers⟩ := ih hnodup.2 hrest
      have hget (id : String) : (theme.withColor entry.1 color).colors[id]? =
          if entry.1 == id then some color else theme.colors[id]? :=
        Std.HashMap.getElem?_insert
      refine ⟨hafter, List.forall_mem_cons.mpr ⟨⟨color, hcolor, ?_⟩, hentries⟩, fun id hid => ?_⟩
      · -- the identifier does not occur again, so its color stays
        rw [hothers _ hnodup.1, hget]
        simp
      · rw [List.map_cons, List.mem_cons, not_or] at hid
        rw [hothers id hid.2, hget, if_neg (by simpa using Ne.symm hid.1)]

/-- The loop over the rules keeps the last rule without scopes as a whole, and adds the others. -/
theorem foldlM_addRule_eq_ok {rules : List RuleDocument}
    (h : rules.foldlM addRule theme = .ok after) :
    after = { theme with
      baseline := ((rules.filter (·.scopes.isEmpty)).getLast?.map (·.settings.stated)).getD
        theme.baseline
      rules := theme.rules ++
        rules.flatMap fun rule => rule.scopes.map (⟨·, rule.settings.stated⟩) } := by
  induction rules generalizing theme with
  | nil =>
      obtain rfl := Except.ok.inj h
      simp
  | cons rule rest ih =>
      rw [List.foldlM_cons] at h
      obtain ⟨next, hnext, hrest⟩ := bind_eq_ok h
      obtain rfl := addRule_eq_ok hnext
      rw [ih hrest, withDocumentRule]
      by_cases hempty : rule.scopes.isEmpty
      · have hscopes : rule.scopes = [] := List.isEmpty_iff.mp hempty
        simp [hscopes, List.getLast?_cons, Option.getD_map]
      · simp [hempty]

/-- A theme with everything that a document says. -/
structure IsFrom (theme : Theme) (document : ThemeDocument) : Prop where
  name_eq : theme.name = document.name
  kind_eq : theme.kind = (document.kind.map ThemeKind.ofText).getD .dark
  /-- The colors are those of the document, with their texts read. -/
  color_iff : ∀ (id : String) (color : Color), theme.colors[id]? = some color ↔
    ∃ s, document.colors[id]? = some s ∧ Color.parse s = .ok color
  defines_iff : ∀ id, theme.defines id ↔ id ∈ document.colors
  /-- The last rule without scopes counts as a whole. -/
  baseline_eq : theme.baseline =
    ((document.rules.filter (·.scopes.isEmpty)).getLast?.map (·.settings.stated)).getD {}
  /-- Every other rule counts once for each of its scopes. -/
  rules_eq : theme.rules =
    document.rules.flatMap fun rule => rule.scopes.map (⟨·, rule.settings.stated⟩)
  registry_eq : theme.registry = none

end Theme

namespace ThemeDocument

/-- The texts of a document that have to be colors, in the order in which they are read. -/
def colorTexts (document : ThemeDocument) : List String :=
  document.colors.toList.map Prod.snd ++ document.rules.flatMap (·.settings.colorTexts)

/-- Colors are read by ascending identifier. -/
theorem colors_ascending (document : ThemeDocument) :
    (document.colors.toList.map Prod.fst).Pairwise (· < ·) := by
  have hordered := Std.TreeMap.ordered_keys_toList (t := document.colors)
  rw [List.pairwise_map]
  exact hordered.imp fun h => compareOfLessAndEq_eq_lt.mp h

theorem nodup_colors (document : ThemeDocument) :
    (document.colors.toList.map Prod.fst).Nodup := by
  refine document.colors_ascending.imp fun {id other} hlt heq => ?_
  subst heq
  exact String.lt_irrefl id hlt

theorem faultOf_compile (document : ThemeDocument) :
    faultOf document.compile = firstFault? document.colorTexts := by
  rw [colorTexts, List.map_eq_flatMap]
  refine faultOf_bind (faultOf_foldlM Theme.faultOf_addColor _ _) fun theme _ => ?_
  exact faultOf_foldlM Theme.faultOf_addRule _ _

theorem isFrom_of_compile {document : ThemeDocument} {theme : Theme}
    (h : document.compile = .ok theme) : theme.IsFrom document := by
  obtain ⟨colored, hcolored, hrules⟩ := bind_eq_ok h
  obtain rfl := Theme.foldlM_addRule_eq_ok hrules
  obtain ⟨hsame, hentries, hothers⟩ :=
    Theme.foldlM_addColor_eq_ok document.nodup_colors hcolored
  have hdefined {id s : String} (hid : document.colors[id]? = some s) :
      ∃ color, Color.parse s = .ok color ∧ colored.colors[id]? = some color :=
    hentries (id, s) (Std.TreeMap.mem_toList_iff_getElem?_eq_some.mpr hid)
  have hmissing {id : String} (hid : document.colors[id]? = none) :
      colored.colors[id]? = none := by
    refine (hothers id fun hmem => ?_).trans Std.HashMap.getElem?_empty
    obtain ⟨⟨_, s⟩, hentry, rfl⟩ := List.mem_map.mp hmem
    rw [Std.TreeMap.mem_toList_iff_getElem?_eq_some.mp hentry] at hid
    cases hid
  refine ⟨by rw [hsame], by rw [hsame], fun id color => ?_, fun id => ?_, by rw [hsame],
    by rw [hsame]; rfl, by rw [hsame]⟩
  · cases hid : document.colors[id]? with
    | none => simp [hmissing hid]
    | some s =>
        obtain ⟨found, hparse, hget⟩ := hdefined hid
        simp [hget, hparse]
  · rw [Std.TreeMap.mem_iff_isSome_getElem?, Theme.defines,
      Std.HashMap.contains_eq_isSome_getElem?]
    cases hid : document.colors[id]? with
    | none => simp [hmissing hid]
    | some s =>
        obtain ⟨found, -, hget⟩ := hdefined hid
        simp [hget]

end ThemeDocument

/-! ### The main result -/

/-- **Compiling ends at the first text that is no color, and only there.** The texts that have to be
colors are those of the colors by ascending identifier, then the foreground and the background of
each rule in order, scoped or not, where they are stated and not inherited. Compiling fails exactly
if one of them is no color, with the fault of the first such text. Otherwise the theme has the
colors of the document and no others, the changes of the last rule without scopes as its baseline,
and one rule for each scope of the others in order. What is inherited or absent stays unset. -/
theorem compile_first_fault (document : ThemeDocument) :
    (document.colors.toList.map Prod.fst).Pairwise (· < ·) ∧
      ((∃ fault, document.compile = .error fault) ↔
        ∃ s ∈ document.colorTexts, ∃ fault, Color.parse s = .error fault) ∧
      (∀ fault, document.compile = .error fault ↔
        ∃ before s after, document.colorTexts = before ++ s :: after ∧
          Color.parse s = .error fault ∧ ∀ t ∈ before, ∃ color, Color.parse t = .ok color) ∧
      ∀ theme, document.compile = .ok theme → theme.IsFrom document := by
  have hfault (fault : Fault) : document.compile = .error fault ↔
      firstFault? document.colorTexts = some fault := by
    rw [← faultOf_eq_some, document.faultOf_compile]
  refine ⟨document.colors_ascending, ?_, fun fault => ?_,
    fun theme => ThemeDocument.isFrom_of_compile⟩
  · calc (∃ fault, document.compile = .error fault)
      _ ↔ (firstFault? document.colorTexts).isSome := by
          simp only [hfault, Option.isSome_iff_exists]
      _ ↔ ∃ s ∈ document.colorTexts, (faultOf (Color.parse s)).isSome :=
          List.findSome?_isSome_iff
      _ ↔ ∃ s ∈ document.colorTexts, ∃ fault, Color.parse s = .error fault := by
          simp only [Option.isSome_iff_exists, faultOf_eq_some]
  · rw [hfault, firstFault?, List.findSome?_eq_some_iff]
    simp only [faultOf_eq_some, faultOf_eq_none]

/-- The bad text of the lesser identifier comes first, though it was entered last. In a document
that is compiled, the first of two rules without scopes counts for nothing. -/
theorem compile_first_fault_order :
    let rules : List RuleDocument :=
      [⟨[], ⟨some "#f00", none, none⟩⟩,
        ⟨["text, mark", "label"], ⟨some "inherit", none, some "bold"⟩⟩,
        ⟨[], ⟨none, some "black", none⟩⟩]
    let bad : ThemeDocument := { colors := .ofList [("b", "#12"), ("a", "#é")], rules }
    let good : ThemeDocument := { colors := .ofList [("b", "#123")], rules }
    bad.compile = .error (.color "#é" .nonAscii) ∧
      ∃ theme, good.compile = .ok theme ∧ theme.colors["b"]? = some (.rgb 17 34 51) ∧
        theme.baseline = ⟨none, some .black, none⟩ ∧
        theme.rules =
          [⟨"text, mark", ⟨none, none, some .bold⟩⟩, ⟨"label", ⟨none, none, some .bold⟩⟩] := by
  intro rules bad good
  obtain ⟨-, -, hfault, -⟩ := compile_first_fault bad
  obtain ⟨-, hfails, -, hfrom⟩ := compile_first_fault good
  have hbad : bad.colorTexts = [] ++ "#é" :: ["#12", "#f00", "black"] := by decide
  have hgood : good.colorTexts = ["#123", "#f00", "black"] := by decide
  have hparse : ∀ s ∈ good.colorTexts, ∃ color, Color.parse s = .ok color := by
    rw [hgood]
    simp only [List.forall_mem_cons]
    exact ⟨⟨_, rfl⟩, ⟨_, rfl⟩, ⟨_, rfl⟩, by simp⟩
  refine ⟨(hfault _).mpr ⟨_, _, _, hbad, rfl, by simp⟩, ?_⟩
  cases hcompile : good.compile with
  | error fault =>
      obtain ⟨s, hs, fault, hs'⟩ := hfails.mp ⟨fault, hcompile⟩
      obtain ⟨color, hcolor⟩ := hparse s hs
      rw [hcolor] at hs'
      cases hs'
  | ok theme =>
      obtain ⟨-, -, hcolor, -, hbaseline, hrules, -⟩ := hfrom theme hcompile
      exact ⟨theme, rfl, (hcolor ..).mpr ⟨"#123", by decide, rfl⟩, hbaseline, hrules⟩

end Highlight
