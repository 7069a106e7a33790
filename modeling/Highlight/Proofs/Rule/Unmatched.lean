import Highlight.Json.Styles
import Highlight.Proofs.Rule.Meaning

/-!
# Paths that no rule applies to

If no selector applies to any scope of a path, the rules leave the default style as it is
(`styleByRules_of_unmatched`), however many colors they number. What a matcher answers went through
a packed word, and there is room in a word for the known flags of a font style only. The colors come
back in any case; the font style comes back exactly if it has no other flags.

All ways of building a font style (`FontStyle.Built`) leave known flags only, so default styles that
were built come back. Reading a document keeps every bit of the byte, so default styles that were
read need not.
-/

namespace Highlight

/-! ### Building font styles -/

namespace FontStyle

/-- The font styles that can be built: from the flags by union, from a byte and from a text. -/
inductive Built : FontStyle → Prop
  | none : Built none
  | italic : Built italic
  | bold : Built bold
  | underline : Built underline
  | union {style other : FontStyle} (hstyle : Built style) (hother : Built other) :
      Built (style.union other)
  | ofBits (bits : UInt8) : Built (ofBits bits)
  | ofText (s : String) : Built (ofText s)

theorem known_ofBits (bits : UInt8) : (ofBits bits).Known := by
  apply UInt8.lt_iff_toNat_lt.mpr
  rw [toNat_bits_ofBits]
  exact Nat.mod_lt _ (by decide)

theorem Known.union {style other : FontStyle} (hstyle : style.Known) (hother : other.Known) :
    (style.union other).Known := by
  have hstyle : style.bits.toNat < 2 ^ 3 := UInt8.lt_iff_toNat_lt.mp hstyle
  have hother : other.bits.toNat < 2 ^ 3 := UInt8.lt_iff_toNat_lt.mp hother
  apply UInt8.lt_iff_toNat_lt.mpr
  rw [FontStyle.union, UInt8.toNat_or]
  exact Nat.or_lt_two_pow hstyle hother

theorem known_ofText (s : String) : (ofText s).Known := by
  have hflag (name : String) {style : FontStyle} (hstyle : style.Known) :
      (if occursIn name.toList s.toList then style else none).Known := by
    split
    · exact hstyle
    · decide
  exact ((hflag "bold" (by decide)).union (hflag "italic" (by decide))).union
    (hflag "underline" (by decide))

/-- What can be built are the font styles with known flags only. -/
theorem built_iff_known {style : FontStyle} : style.Built ↔ style.Known := by
  constructor
  · intro hbuilt
    induction hbuilt with
    | none => decide
    | italic => decide
    | bold => decide
    | underline => decide
    | union _ _ hstyle hother => exact hstyle.union hother
    | ofBits bits => exact known_ofBits bits
    | ofText s => exact known_ofText s
  · intro hknown
    rw [← hknown.ofBits_bits]
    exact .ofBits style.bits

end FontStyle

/-! ### Paths without a matching rule -/

/-- No selector of the rules applies to a scope of the path. -/
def Unmatched (rules : List Rule) (scopes : String) : Prop :=
  ∀ scope ∈ Text.words scopes, ∀ selector ∈ selectorsOfRules rules, ¬ Applies selector scope

instance (rules : List Rule) (scopes : String) : Decidable (Unmatched rules scopes) :=
  inferInstanceAs (Decidable (∀ scope ∈ Text.words scopes, _))

/-- The rules leave the default style of such a path as it is. -/
theorem styleByRules_of_unmatched (default : Style) {rules : List Rule} {scopes : String}
    (hunmatched : Unmatched rules scopes) : styleByRules default rules scopes = default := by
  rw [styleByRules]
  refine List.foldlRecOn (motive := fun style => style = default) _ _ rfl ?_
  rintro style rfl scope hscope
  rw [applyRules, longestSelector?_eq_none_iff.mpr (hunmatched scope hscope)]

/-- The word of such a path keeps all of the default style but its unknown flags. -/
theorem rememberedStyle_of_unmatched (default : Style) {rules : List Rule}
    (earlier : List RuleTable.Query) {scopes : String} (hunmatched : Unmatched rules scopes) :
    let table := RuleTable.ofRules default rules
    ((table.rememberedStyle scopes).run (table.memoAfter earlier)).1 =
      { default with fontStyle := .ofBits default.fontStyle.bits } := by
  intro table
  rw [((table.coherent_memoAfter earlier).rememberedStyle scopes).1]
  refine (styleOf_word_eq_ofBits (compiled_ofRules default rules) ⟨0⟩ scopes).trans ?_
  rw [styleByRules_of_unmatched default hunmatched]

/-! ### The main result -/

/-- **A path that no rule applies to looks like the default style, as far as words can tell.**
Whatever was asked before, its colors are those of the default style, and its font style has the
known flags of the default one. So it gets the default style exactly if that can be built without
reading a document. -/
theorem style_unmatched (default : Style) (rules : List Rule) (earlier : List RuleTable.Query)
    {scopes : String} (hunmatched : Unmatched rules scopes) :
    let table := RuleTable.ofRules default rules
    let style := ((table.rememberedStyle scopes).run (table.memoAfter earlier)).1
    table.default = default ∧ style.foreground = default.foreground ∧
      style.background = default.background ∧
      style.fontStyle = .ofBits default.fontStyle.bits ∧
      (style = default ↔ default.fontStyle.Built) := by
  intro table style
  have hstyle : style = { default with fontStyle := .ofBits default.fontStyle.bits } :=
    rememberedStyle_of_unmatched default earlier hunmatched
  refine ⟨(compiled_ofRules default rules).default_eq, by rw [hstyle], by rw [hstyle],
    by rw [hstyle], ?_⟩
  rw [hstyle, FontStyle.built_iff_known]
  constructor
  · intro hsame
    rw [← congrArg Style.fontStyle hsame]
    exact FontStyle.known_ofBits _
  · intro hknown
    rw [hknown.ofBits_bits]

/-- Default colors that are the same, and scopes that selectors only begin or continue. -/
theorem style_unmatched_near :
    let default : Style := ⟨.white, .white, .ofText "bold underline"⟩
    let rules : List Rule :=
      [⟨"str, source comment.line", ⟨some .black, some .black, some .italic⟩⟩,
        ⟨", quoted", ⟨some (.rgb 1 2 3), none, none⟩⟩]
    let table := RuleTable.ofRules default rules
    let earlier : List RuleTable.Query := [.style "comment.line", .word ⟨3⟩ "comment"]
    Unmatched rules "string.quoted comment" ∧
      ((table.rememberedStyle "string.quoted comment").run (table.memoAfter earlier)).1 =
        default := by
  intro default rules table earlier
  have hunmatched : Unmatched rules "string.quoted comment" := by decide
  obtain ⟨-, -, -, -, hsame⟩ := style_unmatched default rules earlier hunmatched
  exact ⟨hunmatched, hsame.mpr (.ofText _)⟩

/-- A default style that was read from a document with a flag beyond the known ones does not come
back, although no rule applies. -/
theorem style_unmatched_read :
    let default : Style := ⟨.white, .black, ⟨8⟩⟩
    let rules : List Rule := [⟨"comment", ⟨none, none, some .italic⟩⟩]
    let table := RuleTable.ofRules default rules
    let style := ((table.rememberedStyle "unknown").run {}).1
    Style.reader.run "[[255,255,255,255],[0,0,0,255],[8]]" = .ok default ∧
      Unmatched rules "unknown" ∧ style.fontStyle = .none ∧ style ≠ table.default := by
  intro default rules table style
  have hunmatched : Unmatched rules "unknown" := by decide
  have hdefault : table.default = default := (compiled_ofRules default rules).default_eq
  have hstyle : style = { default with fontStyle := .ofBits default.fontStyle.bits } :=
    rememberedStyle_of_unmatched default [] hunmatched
  refine ⟨rfl, hunmatched, by rw [hstyle]; decide, ?_⟩
  rw [hstyle, hdefault]
  decide

end Highlight
