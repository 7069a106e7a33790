import Highlight.Proofs.Html.Markup
import Highlight.Proofs.Html.Spelling

/-!
# What may stand in a run

The style of a run consists of declarations that no text has a part in (`IsStyle`). Its content is
inert (`Inert`): every glyph is an entity or a character without a meaning, and so is what glyphs
make up. So the tags of a run are read back as they were written, and what is between them is its
content (`markup_flatMap_html`).
-/

namespace Highlight.Html

/-! ### Styles -/

def upperHexDigits : List Char := "0123456789ABCDEF".toList

/-- The text sets a color, or nothing. -/
def IsColorSetting (setting : List Char) : Prop :=
  setting = [] ∨
    ∃ digits, setting = "color: #".toList ++ digits ++ [';'] ∧
      (digits.length = 6 ∨ digits.length = 8) ∧ ∀ d ∈ digits, d ∈ upperHexDigits

/-- The declarations of font styles. -/
def fontSettings : List String :=
  ["font-style: italic;", "font-weight: bold;", "text-decoration: underline;"]

/-- The text sets a color or none and then some of the font styles, in order. -/
def IsStyle (style : String) : Prop :=
  ∃ color fonts, style.toList = color ++ fonts.flatMap String.toList ∧ IsColorSetting color ∧
    List.Sublist fonts fontSettings

theorem hexDigit_mem {n : Nat} (hn : n < 16) : Text.hexDigit n ∈ upperHexDigits := by
  have hall : ∀ n < 16, Text.hexDigit n ∈ upperHexDigits := by decide
  exact hall n hn

theorem hexPair_mem (channel : UInt8) : ∀ d ∈ Color.hexPair channel, d ∈ upperHexDigits := by
  have hlt := channel.toNat_lt
  simp only [Color.hexPair, List.mem_cons, List.not_mem_nil, or_false]
  rintro d (rfl | rfl)
  · exact hexDigit_mem (by omega)
  · exact hexDigit_mem (by omega)

theorem hexBody_mem (color : Color) : ∀ d ∈ color.hexBody, d ∈ upperHexDigits := by
  intro d hd
  simp only [Color.hexBody, List.mem_append] at hd
  obtain ((hd | hd) | hd) | hd := hd
  · exact hexPair_mem _ d hd
  · exact hexPair_mem _ d hd
  · exact hexPair_mem _ d hd
  · split at hd
    · exact hexPair_mem _ d hd
    · cases hd

theorem length_hexBody (color : Color) :
    color.hexBody.length = 6 ∨ color.hexBody.length = 8 := by
  unfold Color.hexBody
  split <;> simp [Color.hexPair]

theorem css_sublist (style : FontStyle) : List.Sublist style.css fontSettings :=
  List.filter_sublist.map _

theorem isStyle_styleText (theme : TokenTheme) (m : Metadata) : IsStyle (styleText theme m) := by
  unfold styleText
  cases theme.color m.foreground with
  | none =>
      refine ⟨[], m.fontStyle.css, ?_, .inl rfl, css_sublist _⟩
      simp
  | some color =>
      refine ⟨"color: #".toList ++ color.hexBody ++ [';'], m.fontStyle.css, ?_,
        .inr ⟨color.hexBody, rfl, length_hexBody color, hexBody_mem color⟩, css_sublist _⟩
      simp [Color.toHex]

theorem isStyle_stretch (theme : TokenTheme) (stretch : Stretch) :
    IsStyle (stretch.styleText theme) := by
  unfold Stretch.styleText
  cases stretch.metadata with
  | none => exact ⟨[], [], rfl, .inl rfl, List.nil_sublist _⟩
  | some m => exact isStyle_styleText theme m

/-! ### Contents -/

/-- Nothing in the content can be taken for markup: no barred character occurs, and every `&`
begins an entity. -/
structure Inert (barred : List Char) (entities : List String) (content : List Char) : Prop where
  not_barred : ∀ c ∈ content, c ∉ barred
  entity_of_amp : ∀ rest, '&' :: rest <:+ content → ∃ e ∈ entities, e.toList <+: '&' :: rest

/-- What is never written for characters of a text: brackets, and characters that browsers drop or
take for breaks or other blanks. -/
def textBarred : List Char :=
  ['<', '>', '\x00', '\t', '\n', '\r', '\uFEFF', '\u2028', '\u2029', '\u0085']

/-- A single line may hold line feeds, which stay as they are. -/
def lineBarred : List Char := textBarred.filter (· != '\n')

def textEntities : List String := ["&lt;", "&gt;", "&amp;", "&#00;", "&#160;"]

/-- A single line may hold carriage returns, which have an entity. -/
def lineEntities : List String := textEntities ++ ["&#8203;"]

variable {barred : List Char} {entities : List String} {options : RenderOptions} {cursor : Cursor}

theorem Inert.nil : Inert barred entities [] where
  not_barred := by simp
  entity_of_amp := by simp

theorem Inert.append {front back : List Char} (hfront : Inert barred entities front)
    (hback : Inert barred entities back) : Inert barred entities (front ++ back) where
  not_barred c hc := by
    rcases List.mem_append.mp hc with hc | hc
    · exact hfront.not_barred c hc
    · exact hback.not_barred c hc
  entity_of_amp rest hrest := by
    obtain ⟨before, hbefore⟩ := hrest
    rcases List.append_eq_append_iff.mp hbefore with ⟨middle, rfl, hmiddle⟩ | ⟨middle, _, rfl⟩
    · -- the entity begins in front, and it ends there too
      cases middle with
      | nil => exact hback.entity_of_amp rest ⟨[], hmiddle⟩
      | cons c middle =>
          obtain ⟨rfl, rfl⟩ := List.cons.inj hmiddle
          obtain ⟨e, he, hstart⟩ := hfront.entity_of_amp middle ⟨before, rfl⟩
          exact ⟨e, he, hstart.trans (List.prefix_append ('&' :: middle) back)⟩
    · exact hback.entity_of_amp rest ⟨middle, rfl⟩

theorem Inert.replicate {glyph : List Char} (hglyph : Inert barred entities glyph) (n : Nat) :
    Inert barred entities (List.replicate n glyph).flatten := by
  induction n with
  | zero => exact .nil
  | succ n ih =>
      rw [List.replicate_succ, List.flatten_cons]
      exact hglyph.append ih

theorem Inert.of_char {c : Char} (hbarred : c ∉ barred) (hamp : c ≠ '&') :
    Inert barred entities [c] where
  not_barred := by simpa using hbarred
  entity_of_amp rest hrest := by
    have hmem := hrest.subset List.mem_cons_self
    exact absurd (List.mem_singleton.mp hmem).symm hamp

theorem Inert.of_entity {e : String} {tail : List Char} (hmem : e ∈ entities)
    (he : e.toList = '&' :: tail) (hbarred : ∀ c ∈ e.toList, c ∉ barred) (hamp : '&' ∉ tail) :
    Inert barred entities e.toList where
  not_barred := hbarred
  entity_of_amp rest hrest := by
    rw [he, List.suffix_cons_iff] at hrest
    rcases hrest with hall | hlater
    · have hsame : e.toList = '&' :: rest := he.trans hall.symm
      exact ⟨e, hmem, hsame ▸ List.prefix_rfl⟩
    · exact absurd (hlater.subset List.mem_cons_self) hamp

/-! ### Spellings are inert -/

/-- What holds of a grammar of contents that fits a character. -/
structure Fits (barred : List Char) (entities : List String) (c : Char) : Prop where
  barred_subset : barred ⊆ textBarred
  subset_entities : textEntities ⊆ entities
  lineFeed : '\n' ∈ barred → c ≠ '\n'
  carriageReturn : c = '\r' → "&#8203;" ∈ entities

variable {c : Char}

theorem Fits.inert_entity (hfits : Fits barred entities c) {e : String} (he : e ∈ lineEntities)
    (hmem : e ∈ entities) : Inert barred entities e.toList := by
  have hshape : ∀ e ∈ lineEntities, e.toList = '&' :: e.toList.tail ∧ '&' ∉ e.toList.tail ∧
      ∀ c ∈ e.toList, c ∉ textBarred := by
    simp [lineEntities, textEntities, textBarred]
  obtain ⟨hhead, hamp, hplain⟩ := hshape e he
  have hbarred : ∀ c ∈ e.toList, c ∉ barred := fun c hc h => hplain c hc (hfits.barred_subset h)
  exact .of_entity hmem hhead hbarred hamp

/-- The entities of a text may be written for any character. -/
theorem Fits.inert_textEntity (hfits : Fits barred entities c) {e : String}
    (he : e ∈ textEntities) : Inert barred entities e.toList :=
  hfits.inert_entity (List.mem_append_left _ he) (hfits.subset_entities he)

theorem Fits.inert_plain (hfits : Fits barred entities c) {d : Char} (hbarred : d ∉ textBarred)
    (hamp : d ≠ '&') : Inert barred entities [d] :=
  Inert.of_char (fun hmem => hbarred (hfits.barred_subset hmem)) hamp

theorem Fits.inert_glyph (hfits : Fits barred entities c) (htab : c ≠ '\t') :
    Inert barred entities (entity c) := by
  unfold entity
  split
  · exact hfits.inert_textEntity (e := "&lt;") (by decide)
  split
  · exact hfits.inert_textEntity (e := "&gt;") (by decide)
  split
  · exact hfits.inert_textEntity (e := "&amp;") (by decide)
  split
  · exact hfits.inert_textEntity (e := "&#00;") (by decide)
  split
  · next hcr => exact hfits.inert_entity (e := "&#8203;") (by decide) (hfits.carriageReturn hcr)
  split
  · exact hfits.inert_plain (by decide) (by decide)
  · -- what is left is written as it is
    refine Inert.of_char (fun hmem => ?_) (by assumption)
    have hlf : c ≠ '\n' := fun hlf => hfits.lineFeed (hlf ▸ hmem) hlf
    have htext := hfits.barred_subset hmem
    simp only [textBarred, List.mem_cons, List.not_mem_nil, or_false] at htext
    grind

theorem Fits.inert_spell (hfits : Fits barred entities c) :
    Inert barred entities (spell options cursor c).1 := by
  have hspace : Inert barred entities [' '] := hfits.inert_plain (by decide) (by decide)
  have hnbsp : Inert barred entities nbsp := hfits.inert_textEntity (e := "&#160;") (by decide)
  unfold spell
  split
  · refine Inert.replicate ?_ _
    split
    · exact hnbsp
    · exact hspace
  · split
    · split
      · exact hnbsp
      · exact hspace
    · exact hfits.inert_glyph (by assumption)

theorem inert_spellAll {chars : List Char} (hfits : ∀ c ∈ chars, Fits barred entities c) :
    Inert barred entities (spellAll options cursor chars).1 := by
  induction chars generalizing cursor with
  | nil => exact .nil
  | cons c chars ih =>
      exact (hfits c List.mem_cons_self).inert_spell.append
        (ih fun d hd => hfits d (List.mem_cons_of_mem c hd))

/-- The runs of a line have proper styles, and contents of any grammar that fits the line. -/
theorem mem_spelledRuns {theme : TokenTheme} {line : List Char} {stretches : List Stretch}
    {run : SpelledRun} (hfits : ∀ c ∈ line, Fits barred entities c)
    (hrun : run ∈ spelledRuns theme options line cursor stretches) :
    IsStyle run.style ∧ Inert barred entities run.content := by
  induction stretches generalizing cursor with
  | nil => cases hrun
  | cons stretch rest ih =>
      rcases List.mem_cons.mp hrun with rfl | hrun
      · refine ⟨isStyle_stretch theme stretch, inert_spellAll fun c hc => hfits c ?_⟩
        exact List.mem_of_mem_drop (List.mem_of_mem_take hc)
      · exact ih hrun

/-! ### Runs in the markup -/

/-- The characters that declarations are written with. -/
def styleChars : List Char :=
  "color: #;".toList ++ upperHexDigits ++ fontSettings.flatMap String.toList

theorem mem_styleChars {style : String} (hstyle : IsStyle style) :
    ∀ c ∈ style.toList, c ∈ styleChars := by
  obtain ⟨color, fonts, heq, hcolor, hfonts⟩ := hstyle
  intro c hc
  rw [heq, List.mem_append] at hc
  rcases hc with hc | hc
  · refine List.mem_append_left _ (List.mem_append.mpr ?_)
    obtain rfl | ⟨digits, rfl, _, hdigits⟩ := hcolor
    · cases hc
    · simp only [List.mem_append] at hc
      rcases hc with (hc | hc) | hc
      · exact .inl (List.mem_append_left _ hc)
      · exact .inr (hdigits c hc)
      · exact .inl (List.mem_append_right "color: #".toList hc)
  · obtain ⟨setting, hsetting, hc⟩ := List.mem_flatMap.mp hc
    exact List.mem_append_right _ (List.mem_flatMap.mpr ⟨setting, hfonts.subset hsetting, hc⟩)

theorem isTag_frontTag {run : SpelledRun} (hstyle : IsStyle run.style) : IsTag run.frontTag := by
  have hplain : '>' ∉ styleChars := by decide
  have hbracket : '>' ∉ run.style.toList := fun hmem => hplain (mem_styleChars hstyle _ hmem)
  unfold SpelledRun.frontTag
  split
  · exact ⟨"span".toList, rfl, by decide⟩
  · exact ⟨"span style=\"".toList ++ run.style.toList ++ ['"'], by simp, by simp [hbracket]⟩

theorem isTag_span : IsTag "<span>".toList := ⟨"span".toList, rfl, by decide⟩

theorem isTag_closing : IsTag "</span>".toList := ⟨"/span".toList, rfl, by decide⟩

/-- The run has a proper style and no brackets in its content. -/
def SpelledRun.Harmless (run : SpelledRun) : Prop := IsStyle run.style ∧ '<' ∉ run.content

def SpelledRun.pieces (run : SpelledRun) : List Piece :=
  .tag run.frontTag :: run.content.map .char ++ [.tag "</span>".toList]

theorem filterMap_char?_pieces (run : SpelledRun) :
    run.pieces.filterMap Piece.char? = run.content := by
  simp [SpelledRun.pieces, Piece.char?, List.filterMap_cons, Function.comp_def]

theorem filterMap_tag?_pieces (run : SpelledRun) :
    run.pieces.filterMap Piece.tag? = [run.frontTag, "</span>".toList] := by
  simp [SpelledRun.pieces, Piece.tag?, Function.comp_def]

theorem markup_html {run : SpelledRun} (hrun : run.Harmless) (rest : List Char) :
    markup (run.html ++ rest) = run.pieces ++ markup rest := by
  simp only [SpelledRun.html, SpelledRun.pieces, List.append_assoc, List.cons_append]
  rw [markup_tag_append (isTag_frontTag hrun.1), markup_text_append hrun.2,
    markup_tag_append isTag_closing]
  rfl

theorem markup_flatMap_html {runs : List SpelledRun} (hruns : ∀ run ∈ runs, run.Harmless)
    (rest : List Char) :
    markup (runs.flatMap SpelledRun.html ++ rest) =
      runs.flatMap SpelledRun.pieces ++ markup rest := by
  induction runs with
  | nil => rfl
  | cons run runs ih =>
      have hrest := ih fun later hmem => hruns later (List.mem_cons_of_mem run hmem)
      simp only [List.flatMap_cons, List.append_assoc]
      rw [markup_html (hruns run List.mem_cons_self), hrest]

/-! ### Lines in the markup -/

/-- The characters of a single line may be any. -/
theorem fits_line (c : Char) : Fits lineBarred lineEntities c where
  barred_subset := List.filter_sublist.subset
  subset_entities := List.subset_append_left ..
  lineFeed hmem := absurd hmem (by decide)
  carriageReturn _ := by decide

/-- The line has runs, with proper styles and inert contents. -/
def WellFormed (barred : List Char) (entities : List String) (runs : List SpelledRun) : Prop :=
  runs ≠ [] ∧ ∀ run ∈ runs, IsStyle run.style ∧ Inert barred entities run.content

theorem wellFormed_lineRuns (theme : TokenTheme) (options : RenderOptions) {line : List Char}
    (words : List UInt32) (hfits : ∀ c ∈ line, Fits barred entities c) :
    WellFormed barred entities (lineRuns theme options line words) :=
  ⟨lineRuns_ne_nil theme line words, fun _ hrun => mem_spelledRuns hfits hrun⟩

theorem WellFormed.harmless {runs : List SpelledRun} (hruns : WellFormed barred entities runs)
    (hbarred : '<' ∈ barred) : ∀ run ∈ runs, run.Harmless := by
  intro run hrun
  obtain ⟨hstyle, hcontent⟩ := hruns.2 run hrun
  exact ⟨hstyle, fun hmem => hcontent.not_barred _ hmem hbarred⟩

/-- A line of runs, read back. -/
theorem markup_line {runs : List SpelledRun} (hruns : ∀ run ∈ runs, run.Harmless)
    (rest : List Char) :
    markup ("<span>".toList ++ runs.flatMap SpelledRun.html ++ "</span>".toList ++ rest) =
      .tag "<span>".toList :: runs.flatMap SpelledRun.pieces ++
        .tag "</span>".toList :: markup rest := by
  rw [List.append_assoc, List.append_assoc, markup_tag_append isTag_span,
    markup_flatMap_html hruns, markup_tag_append isTag_closing]
  rfl

theorem markup_renderLine (theme : TokenTheme) (options : RenderOptions) (line : List Char)
    (words : List UInt32) :
    markup (renderLine theme options line words) =
      .tag "<span>".toList :: (lineRuns theme options line words).flatMap SpelledRun.pieces ++
        [.tag "</span>".toList] := by
  have hwell := wellFormed_lineRuns theme options words fun c (_ : c ∈ line) => fits_line c
  have hmarkup := markup_line (hwell.harmless (by decide)) []
  rw [← renderLine_eq_flatMap_html, List.append_nil] at hmarkup
  exact hmarkup

end Highlight.Html
