import Highlight.Proofs.Html.Text

/-!
# What is rendered can be read back

Deleting the tags of a rendered line leaves the spellings of its characters, one behind the other.
A reader that goes from left to right and replaces every entity by its character gets back what a
browser shows (`shown`): the line itself, but for the characters that are replaced and for tabs,
which have become spaces up to the next tab stop. No ampersand of the line is left as it is, so what
looks like an entity in the line does not become one.

The cursor counts columns, and columns are the characters that are read back: this invariant carries
the proof from one character to the next, since the width of a tab depends on the column.
-/

namespace Highlight.Html

/-! ### Reading -/

/-- The entities with their characters. -/
def entityChars : List (String × Char) :=
  [("&lt;", '<'), ("&gt;", '>'), ("&amp;", '&'), ("&#00;", '\x00'), ("&#8203;", '\r'),
    ("&#160;", ' ')]

/-- Replaces every entity by its character, once some characters of an entity have been skipped. -/
def decodeBehind : Nat → List Char → List Char
  | _, [] => []
  | skipped + 1, _ :: rest => decodeBehind skipped rest
  | 0, c :: rest =>
      match entityChars.find? fun (spelling, _) => spelling.toList.isPrefixOf (c :: rest) with
      | some (spelling, char) => char :: decodeBehind (spelling.length - 1) rest
      | none => c :: decodeBehind 0 rest

/-- Replaces every entity by its character. -/
def decode (s : List Char) : List Char := decodeBehind 0 s

/-- The text is read as one character, whatever is behind it. -/
def ReadsAs (text : List Char) (c : Char) : Prop :=
  ∀ rest, decode (text ++ rest) = c :: decode rest

theorem readsAs_of_mem (spelling : String) {c : Char} (hmem : (spelling, c) ∈ entityChars) :
    ReadsAs spelling.toList c := by
  intro rest
  simp only [entityChars, List.mem_cons, Prod.mk.injEq, List.not_mem_nil, or_false] at hmem
  rcases hmem with ⟨rfl, rfl⟩ | ⟨rfl, rfl⟩ | ⟨rfl, rfl⟩ | ⟨rfl, rfl⟩ | ⟨rfl, rfl⟩ | ⟨rfl, rfl⟩ <;>
    rfl

theorem readsAs_char {c : Char} (hamp : c ≠ '&') : ReadsAs [c] c := by
  intro rest
  simp [decode, decodeBehind, entityChars, hamp.symm]

theorem decode_replicate {text : List Char} {c : Char} (htext : ReadsAs text c) (n : Nat)
    (rest : List Char) :
    decode ((List.replicate n text).flatten ++ rest) = List.replicate n c ++ decode rest := by
  induction n with
  | zero => rfl
  | succ n ih =>
      rw [List.replicate_succ, List.flatten_cons, List.append_assoc, htext, ih]
      rfl

/-! ### What a line looks like -/

/-- The characters that browsers drop or take for line breaks. -/
def replacedChars : List Char := ['\uFEFF', '\u2028', '\u2029', '\u0085']

/-- What is seen of a character that has some number of characters before it. -/
def shownChar (tabSize before : Nat) (c : Char) : List Char :=
  if c = '\t' then
    let size := max tabSize 1
    List.replicate (size - before % size) ' '
  else if c ∈ replacedChars then ['\uFFFD']
  else [c]

/-- What is seen of a line. -/
def shown (tabSize : Nat) (line : List Char) : List Char :=
  line.foldl (fun before c => before ++ shownChar tabSize before.length c) []

/-- What is seen of characters that are written from a column on. -/
def shownFrom (tabSize column : Nat) : List Char → List Char
  | [] => []
  | c :: cs =>
      let here := shownChar tabSize column c
      here ++ shownFrom tabSize (column + here.length) cs

theorem foldl_shownChar (tabSize : Nat) (line before : List Char) :
    line.foldl (fun before c => before ++ shownChar tabSize before.length c) before =
      before ++ shownFrom tabSize before.length line := by
  induction line generalizing before with
  | nil => rw [shownFrom, List.append_nil]; rfl
  | cons c line ih => rw [List.foldl_cons, ih, List.length_append, List.append_assoc]; rfl

theorem shown_eq_shownFrom (tabSize : Nat) (line : List Char) :
    shown tabSize line = shownFrom tabSize 0 line :=
  foldl_shownChar tabSize line []

theorem shownFrom_append (tabSize column : Nat) (front back : List Char) :
    shownFrom tabSize column (front ++ back) =
      shownFrom tabSize column front ++
        shownFrom tabSize (column + (shownFrom tabSize column front).length) back := by
  induction front generalizing column with
  | nil => rfl
  | cons c front ih =>
      simp only [List.cons_append, shownFrom, ih, List.append_assoc, List.length_append,
        Nat.add_assoc]

/-- Neither a tab nor a character that is replaced. -/
def IsKept (c : Char) : Prop := c ≠ '\t' ∧ c ∉ replacedChars

instance : DecidablePred IsKept := fun c =>
  inferInstanceAs (Decidable (c ≠ '\t' ∧ c ∉ replacedChars))

theorem shownChar_of_isKept {c : Char} (hc : IsKept c) (tabSize before : Nat) :
    shownChar tabSize before c = [c] := by
  simp [shownChar, hc.1, hc.2]

theorem shownFrom_of_isKept {line : List Char} (hline : ∀ c ∈ line, IsKept c)
    (tabSize column : Nat) : shownFrom tabSize column line = line := by
  induction line generalizing column with
  | nil => rfl
  | cons c line ih =>
      simp only [shownFrom, shownChar_of_isKept (hline c List.mem_cons_self),
        ih fun d hd => hline d (List.mem_cons_of_mem c hd)]
      rfl

theorem shown_of_isKept {line : List Char} (hline : ∀ c ∈ line, IsKept c) (tabSize : Nat) :
    shown tabSize line = line :=
  (shown_eq_shownFrom tabSize line).trans (shownFrom_of_isKept hline tabSize 0)

/-! ### Spellings are read as what is seen -/

variable {options : RenderOptions} {cursor : Cursor}

theorem readsAs_space : ReadsAs [' '] ' ' := readsAs_char (by decide)

theorem readsAs_nbsp : ReadsAs nbsp ' ' := readsAs_of_mem "&#160;" (by decide)

theorem readsAs_entity (c : Char) :
    ReadsAs (entity c) (if c ∈ replacedChars then '\uFFFD' else c) := by
  unfold entity
  split
  · next hc => exact hc ▸ readsAs_of_mem "&lt;" (by decide)
  split
  · next hc => exact hc ▸ readsAs_of_mem "&gt;" (by decide)
  split
  · next hc => exact hc ▸ readsAs_of_mem "&amp;" (by decide)
  split
  · next hc => exact hc ▸ readsAs_of_mem "&#00;" (by decide)
  split
  · next hc => exact hc ▸ readsAs_of_mem "&#8203;" (by decide)
  split
  · next hc =>
      rw [if_pos (by simpa [replacedChars] using hc)]
      exact readsAs_char (by decide)
  · next hc =>
      -- what is left is written as it is
      rw [if_neg (by simpa [replacedChars] using hc)]
      exact readsAs_char (by assumption)

/-- The spelling of one character is read as what is seen of it in that column. -/
theorem decode_spell (options : RenderOptions) (cursor : Cursor) (c : Char) (rest : List Char) :
    decode ((spell options cursor c).1 ++ rest) =
      shownChar options.tabSize cursor.column c ++ decode rest := by
  unfold spell shownChar
  split
  · -- a tab: fillers of either spelling
    refine decode_replicate ?_ _ rest
    split
    · exact readsAs_nbsp
    · exact readsAs_space
  · split
    · next hspace =>
        subst hspace
        split
        · exact readsAs_nbsp rest
        · exact readsAs_space rest
    · rw [readsAs_entity c rest]
      split <;> rfl

/-- The column counts the characters that are seen. -/
theorem column_spell (options : RenderOptions) (cursor : Cursor) (c : Char) :
    (spell options cursor c).2.column =
      cursor.column + (shownChar options.tabSize cursor.column c).length := by
  unfold spell shownChar
  split
  · simp [tabWidth]
  · split
    · split <;> split <;> rfl
    · split <;> rfl

/-- The spelling of characters is read as what is seen of them from the column of the cursor on. -/
theorem decode_spellAll (options : RenderOptions) (cursor : Cursor) (chars : List Char) :
    decode (spellAll options cursor chars).1 =
      shownFrom options.tabSize cursor.column chars := by
  induction chars generalizing cursor with
  | nil => rfl
  | cons c chars ih =>
      simp only [spellAll, shownFrom, decode_spell, ih, column_spell]

/-- The cursor is carried on by what is seen. -/
theorem column_spellAll (options : RenderOptions) (cursor : Cursor) (chars : List Char) :
    (spellAll options cursor chars).2.column =
      cursor.column + (shownFrom options.tabSize cursor.column chars).length := by
  induction chars generalizing cursor with
  | nil => rfl
  | cons c chars ih =>
      simp only [spellAll, shownFrom, ih, column_spell, List.length_append, Nat.add_assoc]

/-- The text outside of the tags of a line is read as what is seen of the line. -/
theorem decode_withoutTags (theme : TokenTheme) (options : RenderOptions) (line : List Char)
    {words : List UInt32} (hwords : NonDecreasing words) :
    decode (withoutTags (renderLine theme options line words)) = shown options.tabSize line := by
  rw [withoutTags_renderLine_eq_spellAll theme line hwords, decode_spellAll, shown_eq_shownFrom]

/-! ### Lines are read back -/

/-- **A rendered line can be read back.** Without its tags and with its entities replaced, a line
rendered with words in order is the line with every tab filled up with spaces to the next tab stop
and every character that browsers drop or break at replaced. So a line without such characters is
read back as it is, and two of them are never rendered the same, whatever themes, options and words
they are rendered with. -/
theorem decode_renderLine (theme : TokenTheme) (options : RenderOptions) (line : List Char)
    {words : List UInt32} (hwords : NonDecreasing words) :
    decode (withoutTags (renderLine theme options line words)) = shown options.tabSize line ∧
      ((∀ c ∈ line, IsKept c) →
        decode (withoutTags (renderLine theme options line words)) = line ∧
          ∀ (theme' : TokenTheme) (options' : RenderOptions) (line' : List Char)
            (words' : List UInt32), NonDecreasing words' → (∀ c ∈ line', IsKept c) →
              line' ≠ line →
                renderLine theme' options' line' words' ≠ renderLine theme options line words) := by
  have hread := decode_withoutTags theme options line hwords
  refine ⟨hread, fun hline => ?_⟩
  have hback : decode (withoutTags (renderLine theme options line words)) = line :=
    hread.trans (shown_of_isKept hline options.tabSize)
  refine ⟨hback, fun theme' options' line' words' hwords' hline' hne hsame => hne ?_⟩
  calc line' = shown options'.tabSize line' := (shown_of_isKept hline' options'.tabSize).symm
    _ = decode (withoutTags (renderLine theme' options' line' words')) :=
      (decode_withoutTags theme' options' line' hwords').symm
    _ = decode (withoutTags (renderLine theme options line words)) := by rw [hsame]
    _ = line := hback

/-- A line that holds what looks like an entity, against the line that it looks like. They are
rendered with runs that end inside of it, one of them with spaces kept apart. In a third line tabs
reach to the next stop, and a replaced character is one column wide. -/
theorem decode_renderLine_lookalike :
    let theme : TokenTheme := ⟨fun language _ => .plain language, fun _ => some .black⟩
    let apart : RenderOptions := { useNbsp := true }
    let line := "&lt;  b\r".toList
    let other := "<  b\r".toList
    let words : List UInt32 := [0, 16384, 2, 4096, 5, 0]
    (NonDecreasing words ∧ (∀ c ∈ line, IsKept c) ∧ (∀ c ∈ other, IsKept c) ∧ other ≠ line) ∧
      decode (withoutTags (renderLine theme apart line words)) = line ∧
      renderLine theme {} other words ≠ renderLine theme apart line words ∧
      decode (withoutTags (renderLine theme apart "&#160;\t\u2028\tc".toList words)) =
        "&#160;  \uFFFD   c".toList := by
  intro theme apart line other words
  have hwords : NonDecreasing words := by decide
  have hline : ∀ c ∈ line, IsKept c := by simp [line, IsKept, replacedChars]
  have hother : ∀ c ∈ other, IsKept c := by simp [other, IsKept, replacedChars]
  have hne : other ≠ line := by decide
  obtain ⟨-, hkept⟩ := decode_renderLine theme apart line hwords
  obtain ⟨hback, hdifferent⟩ := hkept hline
  obtain ⟨htabs, -⟩ := decode_renderLine theme apart "&#160;\t\u2028\tc".toList hwords
  exact ⟨⟨hwords, hline, hother, hne⟩, hback, hdifferent theme {} other words hwords hother hne,
    htabs.trans (by decide)⟩

end Highlight.Html
