import Mathlib.Data.List.Chain
import Highlight.Proofs.Html.Decoding
import Highlight.Proofs.Text.Replacing

/-!
# Keeping spaces apart only spells spaces anew

A line is rendered twice, with spaces kept apart and without. The cursors of the two differ in
whether a plain space was written last, but never in their column, so both write the same but for
spaces, and those that are kept apart are plain ones once they are replaced (`Respells`). An
ampersand of the line is an entity in both, so nothing else of the line is replaced.

Where spaces are kept apart, no plain space is next to another one: if what was written ends with a
plain space, then the cursor knows (`KeptApart`). The cursor is carried over from run to run, so
this holds of the text of the whole line, wherever its runs begin.
-/

namespace Highlight.Html

variable {options : RenderOptions} {cursor : Cursor} {text plain : List Char}

/-- A glyph is an entity, but not that of non-breaking spaces, or a single character: never an
ampersand, and a space only for a space. -/
theorem entity_cases (c : Char) :
    (∃ e ∈ lineEntities, e ≠ "&#160;" ∧ entity c = e.toList) ∨
      ∃ d, d ≠ '&' ∧ (c ≠ ' ' → d ≠ ' ') ∧ entity c = [d] := by
  unfold entity
  split
  · exact .inl ⟨"&lt;", by decide, by decide, rfl⟩
  split
  · exact .inl ⟨"&gt;", by decide, by decide, rfl⟩
  split
  · exact .inl ⟨"&amp;", by decide, by decide, rfl⟩
  split
  · exact .inl ⟨"&#00;", by decide, by decide, rfl⟩
  split
  · exact .inl ⟨"&#8203;", by decide, by decide, rfl⟩
  split
  · exact .inr ⟨'\uFFFD', by decide, fun _ => by decide, rfl⟩
  · next hamp _ _ _ => exact .inr ⟨c, hamp, id, rfl⟩

/-! ### Replacing non-breaking spaces -/

/-- Once its non-breaking spaces are replaced, the text is the plain one, whatever is behind it. -/
def Respells (text plain : List Char) : Prop :=
  ∀ rest, Text.replaceAll nbsp [' '] (text ++ rest) = plain ++ Text.replaceAll nbsp [' '] rest

theorem Respells.append {back plainBack : List Char} (htext : Respells text plain)
    (hback : Respells back plainBack) : Respells (text ++ back) (plain ++ plainBack) := by
  intro rest
  rw [List.append_assoc, htext, hback, List.append_assoc]

theorem Respells.replicate (htext : Respells text plain) (n : Nat) :
    Respells (List.replicate n text).flatten (List.replicate n plain).flatten := by
  induction n with
  | zero => exact fun rest => rfl
  | succ n ih =>
      rw [List.replicate_succ, List.replicate_succ, List.flatten_cons, List.flatten_cons]
      exact htext.append ih

/-- A text without ampersands stays. -/
theorem respells_of_not_mem (htext : '&' ∉ text) : Respells text text :=
  Text.replaceAll_append_of_not_mem htext

theorem respells_space : Respells [' '] [' '] := respells_of_not_mem (by decide)

theorem respells_nbsp : Respells nbsp [' '] := Text.replaceAll_old_append

/-- The other entities stay. -/
theorem respells_of_mem (e : String) (he : e ∈ lineEntities) (hne : e ≠ "&#160;") :
    Respells e.toList e.toList := by
  intro rest
  simp only [lineEntities, textEntities, List.cons_append, List.nil_append, List.mem_cons,
    List.not_mem_nil, or_false] at he
  rcases he with rfl | rfl | rfl | rfl | rfl | rfl
  · rfl
  · rfl
  · rfl
  · rfl
  · exact absurd rfl hne
  · rfl

theorem respells_entity (c : Char) : Respells (entity c) (entity c) := by
  obtain ⟨e, he, hne, heq⟩ | ⟨d, hamp, -, heq⟩ := entity_cases c
  · exact heq ▸ respells_of_mem e he hne
  · exact heq ▸ respells_of_not_mem (by simpa using Ne.symm hamp)

/-! ### The same line with and without spaces kept apart -/

/-- Both cursors stand in the same column, and they stay together. -/
theorem respells_spell (options : RenderOptions) {kept : Cursor}
    (hcolumn : kept.column = cursor.column) (c : Char) :
    Respells (spell { options with useNbsp := true } kept c).1
        (spell { options with useNbsp := false } cursor c).1 ∧
      (spell { options with useNbsp := true } kept c).2.column =
        (spell { options with useNbsp := false } cursor c).2.column := by
  constructor
  · unfold spell
    split
    · -- tabs are as wide as the column says
      rw [tabWidth, tabWidth, hcolumn]
      exact respells_nbsp.replicate _
    · split
      · split
        · exact respells_nbsp
        · exact respells_space
      · exact respells_entity c
  · rw [column_spell, column_spell, hcolumn]

theorem respells_spellAll (options : RenderOptions) {kept : Cursor}
    (hcolumn : kept.column = cursor.column) (chars : List Char) :
    Respells (spellAll { options with useNbsp := true } kept chars).1
        (spellAll { options with useNbsp := false } cursor chars).1 ∧
      (spellAll { options with useNbsp := true } kept chars).2.column =
        (spellAll { options with useNbsp := false } cursor chars).2.column := by
  induction chars generalizing kept cursor with
  | nil => exact ⟨fun rest => rfl, hcolumn⟩
  | cons c chars ih =>
      obtain ⟨hhere, hnext⟩ := respells_spell options hcolumn c
      obtain ⟨hrest, hlast⟩ := ih hnext
      exact ⟨hhere.append hrest, hlast⟩

/-- Tags stay, since no style has an ampersand. -/
theorem respells_openTag {style : String} (hstyle : IsStyle style) :
    Respells (openTag style) (openTag style) := by
  have hplain : '&' ∉ styleChars := by decide
  have hamp : '&' ∉ style.toList := fun hmem => hplain (mem_styleChars hstyle _ hmem)
  unfold openTag
  split
  · exact respells_of_not_mem (by decide)
  · have hfront := respells_of_not_mem (by decide : '&' ∉ "<span style=\"".toList)
    have hback := respells_of_not_mem (by decide : '&' ∉ "\">".toList)
    exact (hfront.append (respells_of_not_mem hamp)).append hback

theorem respells_closeTag : Respells closeTag closeTag := respells_of_not_mem (by decide)

theorem respells_renderStretches (theme : TokenTheme) (options : RenderOptions)
    (line : List Char) {kept : Cursor} (hcolumn : kept.column = cursor.column)
    (stretches : List Stretch) :
    Respells (renderStretches theme { options with useNbsp := true } line kept stretches)
      (renderStretches theme { options with useNbsp := false } line cursor stretches) := by
  induction stretches generalizing kept cursor with
  | nil => exact fun rest => rfl
  | cons stretch rest ih =>
      have hopen := respells_openTag (isStyle_stretch theme stretch)
      obtain ⟨hcontent, hnext⟩ := respells_spellAll options hcolumn (stretch.chars line)
      exact ((hopen.append hcontent).append respells_closeTag).append (ih hnext)

theorem replaceAll_renderLine (theme : TokenTheme) (options : RenderOptions) (line : List Char)
    (words : List UInt32) :
    Text.replaceAll nbsp [' '] (renderLine theme { options with useNbsp := true } line words) =
      renderLine theme { options with useNbsp := false } line words := by
  have hopen : Respells (openTag "") (openTag "") := respells_of_not_mem (by decide)
  have hcolumn : Cursor.column {} = Cursor.column {} := rfl
  have hruns :=
    respells_renderStretches theme options line hcolumn (stretches line.length words)
  have hline := ((hopen.append hruns).append respells_closeTag) []
  simpa [renderLine] using hline

/-! ### Plain spaces are kept apart -/

/-- Two characters that may be next to each other: not both of them plain spaces. -/
def MayMeet (c d : Char) : Prop := ¬ (c = ' ' ∧ d = ' ')

/-- No plain space is next to another one, and if the text ends with one then the cursor knows. -/
structure KeptApart (text : List Char) (cursor : Cursor) : Prop where
  apart : text.IsChain MayMeet
  afterSpace : text.getLast? = some ' ' → cursor.afterSpace = true

theorem KeptApart.not_infix (h : KeptApart text cursor) : ¬ [' ', ' '] <:+: text := by
  intro hspaces
  have hchain : [' ', ' '].IsChain MayMeet := List.IsChain.infix h.apart hspaces
  exact List.isChain_pair.mp hchain ⟨rfl, rfl⟩

/-- What has no plain space may be written anywhere. -/
theorem KeptApart.append_of_not_mem {glyph : List Char} (h : KeptApart text cursor)
    (hglyph : ' ' ∉ glyph) (hne : glyph ≠ []) (next : Cursor) :
    KeptApart (text ++ glyph) next where
  apart := by
    have hmeet : ∀ c d, d ∈ glyph → MayMeet c d := by
      rintro c d hd ⟨-, rfl⟩
      exact hglyph hd
    have hchain : glyph.IsChain MayMeet :=
      List.isChain_iff_forall_rel_of_append_cons_cons.mpr fun c d _ _ heq =>
        hmeet c d (by simp [heq])
    exact List.isChain_append.mpr
      ⟨h.apart, hchain, fun c _ d hd => hmeet c d (List.mem_of_mem_head? hd)⟩
  afterSpace hlast := by
    rw [List.getLast?_append_of_ne_nil text hne] at hlast
    exact absurd (List.mem_of_getLast? hlast) hglyph

/-- A plain space may be written where the cursor knows of none before it. -/
theorem KeptApart.append_space (h : KeptApart text cursor) (hcursor : cursor.afterSpace = false)
    {next : Cursor} (hnext : next.afterSpace = true) : KeptApart (text ++ [' ']) next where
  apart := by
    refine List.isChain_append.mpr ⟨h.apart, List.isChain_singleton _, ?_⟩
    rintro c hc _ - ⟨rfl, -⟩
    rw [h.afterSpace hc] at hcursor
    cases hcursor
  afterSpace _ := hnext

theorem tabWidth_pos (options : RenderOptions) (column : Nat) : 0 < tabWidth options column := by
  have hlt : column % max options.tabSize 1 < max options.tabSize 1 := Nat.mod_lt _ (by omega)
  exact Nat.sub_pos_of_lt hlt

/-- The spelling of a character other than a space may be written anywhere. -/
theorem KeptApart.append_entity {c : Char} (h : KeptApart text cursor) (hc : c ≠ ' ')
    (next : Cursor) : KeptApart (text ++ entity c) next := by
  have hentities : ∀ e ∈ lineEntities, ' ' ∉ e.toList ∧ e.toList ≠ [] := by decide
  obtain ⟨e, he, -, heq⟩ | ⟨d, -, hd, heq⟩ := entity_cases c
  · obtain ⟨hspace, hne⟩ := hentities e he
    exact heq ▸ h.append_of_not_mem hspace hne next
  · have hspace : ' ' ∉ [d] := by simpa using (hd hc).symm
    exact heq ▸ h.append_of_not_mem hspace (List.cons_ne_nil d []) next

theorem KeptApart.append_spell (hapart : options.useNbsp = true) (h : KeptApart text cursor)
    (c : Char) :
    KeptApart (text ++ (spell options cursor c).1) (spell options cursor c).2 := by
  have hnbsp : ' ' ∉ nbsp := by decide
  have hne : nbsp ≠ [] := by decide
  unfold spell
  split
  · -- fillers are no plain spaces, and there is at least one of them
    have hwidth := tabWidth_pos options cursor.column
    exact h.append_of_not_mem (by simp [hnbsp]) (by simp [hne, hwidth.ne']) _
  · split
    · split
      · exact h.append_of_not_mem hnbsp hne _
      · next hcursor => exact h.append_space (by simpa [hapart] using hcursor) rfl
    · next hspace => exact h.append_entity hspace _

theorem KeptApart.append_spellAll (hapart : options.useNbsp = true) (h : KeptApart text cursor)
    (chars : List Char) :
    KeptApart (text ++ (spellAll options cursor chars).1) (spellAll options cursor chars).2 := by
  induction chars generalizing text cursor with
  | nil => simpa [spellAll] using h
  | cons c chars ih =>
      have hrest := ih (h.append_spell hapart c)
      rwa [List.append_assoc] at hrest

/-! ### Lines -/

/-- **Keeping spaces apart only spells spaces anew.** Whatever the line, the words and the theme
are: if non-breaking spaces are replaced by plain ones, a line that is rendered with spaces kept
apart is what it is without, and its text outside of tags never has two plain spaces in a row,
whether they come from one run, from two or from a tab. -/
theorem renderLine_useNbsp (theme : TokenTheme) (options : RenderOptions) (line : List Char)
    (words : List UInt32) :
    Text.replaceAll nbsp [' '] (renderLine theme { options with useNbsp := true } line words) =
        renderLine theme { options with useNbsp := false } line words ∧
      ¬ [' ', ' '] <:+:
        withoutTags (renderLine theme { options with useNbsp := true } line words) := by
  refine ⟨replaceAll_renderLine theme options line words, ?_⟩
  rw [withoutTags_renderLine_eq_spellAll_chars]
  have hstart : KeptApart [] {} := ⟨.nil, nofun⟩
  have hapart : ({ options with useNbsp := true } : RenderOptions).useNbsp = true := rfl
  have hline := hstart.append_spellAll hapart
    ((stretches line.length words).flatMap (·.chars line))
  exact hline.not_infix

/-- Two spaces, a tab and a space, in runs that begin at the second space and behind the tab. -/
example :
    let theme : TokenTheme := ⟨fun language _ => .plain language, fun _ => none⟩
    renderLine theme { tabSize := 3, useNbsp := true } "  \t b".toList [0, 0, 1, 0, 3, 0] =
      "<span><span> </span><span>&#160;&#160;</span><span> b</span></span>".toList := by
  decide

end Highlight.Html
