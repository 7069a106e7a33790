import Highlight.Proofs.Html.Harmless
import Highlight.Proofs.Html.Tiling

/-!
# Highlighting does not change the text

When the starts of the words do not go back, the stretches of a line hold its characters one after
the other. Their spellings then make up the spelling of the whole line, and the tags around them
are all that the words add to it. So the text outside of tags depends on the line and the options
only.
-/

namespace Highlight.Html

/-- The starts of the runs that the words stand for do not go back. -/
def NonDecreasing (words : List UInt32) : Prop :=
  ((Run.ofWords words).map Run.start).IsChain (· ≤ ·)

instance : DecidablePred NonDecreasing := fun words =>
  inferInstanceAs (Decidable (((Run.ofWords words).map Run.start).IsChain (· ≤ ·)))

theorem startsFrom_of_isChain {first : Run} {rest : List Run}
    (h : ((first :: rest).map Run.start).IsChain (· ≤ ·)) :
    StartsFrom first.start.toNat ((runMarks rest).map Mark.start) := by
  induction rest generalizing first with
  | nil => exact .nil
  | cons next rest ih =>
      simp only [List.map_cons, List.isChain_cons_cons] at h
      exact startsFrom_runMarks_cons.mpr ⟨UInt32.le_iff_toNat_le.mp h.1, ih h.2⟩

theorem map_snd_markedBy (look : Nat → Option Metadata) (start : Nat) (chars : List Char) :
    (markedBy look start chars).map Prod.snd = chars := by
  refine List.ext_getElem? fun offset => ?_
  simp [markedBy, Function.comp_def]

/-- The stretches of a line hold its characters one after the other. -/
theorem flatMap_chars_stretches (line : List Char) {words : List UInt32}
    (hwords : NonDecreasing words) :
    (stretches line.length words).flatMap (·.chars line) = line := by
  have hmarked : ∀ all : List Stretch,
      all.flatMap (·.chars line) = (all.flatMap (·.marked line)).map Prod.snd := by
    intro all
    rw [List.map_flatMap]
    refine List.flatMap_congr fun stretch _ => ?_
    rw [Stretch.marked, List.map_map]
    exact (List.map_id _).symm
  unfold stretches
  unfold NonDecreasing at hwords
  cases hruns : Run.ofWords words with
  | nil => simp [Stretch.chars]
  | cons first rest =>
      rw [hruns] at hwords
      -- the first run starts with the line, wherever its word says
      have hrest := (startsFrom_of_isChain hwords).weaken (Nat.zero_le _)
      rw [hmarked, flatMap_marked_stretchesFrom _ (Nat.zero_le _) hrest, map_snd_markedBy,
        List.drop_zero]

variable {options : RenderOptions}

/-- The text outside of tags is the spelling of the characters in the stretches, whatever the words
are. -/
theorem withoutTags_renderLine_eq_spellAll_chars (theme : TokenTheme) (line : List Char)
    (words : List UInt32) :
    withoutTags (renderLine theme options line words) =
      (spellAll options {} ((stretches line.length words).flatMap (·.chars line))).1 := by
  have hcontent : withoutTags (renderLine theme options line words) =
      (lineRuns theme options line words).flatMap SpelledRun.content := by
    rw [withoutTags, markup_renderLine]
    simp [Piece.char?, List.filterMap_cons, List.filterMap_flatMap, filterMap_char?_pieces]
  rw [hcontent, lineRuns, flatMap_content_spelledRuns]

/-- If words are in order, that is the spelling of the line. -/
theorem withoutTags_renderLine_eq_spellAll (theme : TokenTheme) (line : List Char)
    {words : List UInt32} (hwords : NonDecreasing words) :
    withoutTags (renderLine theme options line words) = (spellAll options {} line).1 := by
  rw [withoutTags_renderLine_eq_spellAll_chars, flatMap_chars_stretches line hwords]

/-- **Highlighting does not change the text.** Without its tags, a line that is rendered with words
in order is what it is without words, and so it is the same for all such words and themes: every
character of the line in its spelling, once and in order. -/
theorem withoutTags_renderLine (theme : TokenTheme) (options : RenderOptions) (line : List Char)
    {words : List UInt32} (hwords : NonDecreasing words) :
    withoutTags (renderLine theme options line words) =
        withoutTags (renderLine theme options line []) ∧
      (∀ (other : TokenTheme) (others : List UInt32), NonDecreasing others →
        withoutTags (renderLine theme options line words) =
          withoutTags (renderLine other options line others)) ∧
      withoutTags (renderLine theme options line words) = (spellAll options {} line).1 := by
  have hsame : ∀ (other : TokenTheme) {others : List UInt32}, NonDecreasing others →
      withoutTags (renderLine other options line others) = (spellAll options {} line).1 :=
    fun other => withoutTags_renderLine_eq_spellAll other line
  refine ⟨?_, ?_, hsame theme hwords⟩
  · rw [hsame theme hwords, hsame theme (by decide)]
  · intro other others hothers
    rw [hsame theme hwords, hsame other hothers]

/-- Words with an odd length, a first start inside of the line, two equal starts and one behind the
end. -/
theorem withoutTags_renderLine_clipped :
    let theme : TokenTheme := ⟨fun language _ => .plain language, fun _ => some .black⟩
    let line := "a\t<b".toList
    let words : List UInt32 := [1, 16384, 2, 0, 2, 4096, 9, 0, 5]
    NonDecreasing words ∧ withoutTags (renderLine theme {} line words) = "a   &lt;b".toList := by
  intro theme line words
  have hwords : NonDecreasing words := by decide
  obtain ⟨-, -, htext⟩ := withoutTags_renderLine theme {} line hwords
  exact ⟨hwords, htext.trans (by decide)⟩

end Highlight.Html
