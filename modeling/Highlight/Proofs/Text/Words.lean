import Highlight.Text.Blank

/-!
# Words and the blanks around them

A text is spaced out from words (`Spaced`) if it is these words one after the other, with blanks
between any two of them and any blanks at both ends. Every text is spaced out from some words
(`exists_spaced`), and it is cut back into exactly these words, whatever the blanks are. So the
words of a text are the only ones it is spaced out from (`spaced_iff_wordsOf_eq`).
-/

namespace Highlight.Text

/-- There is no blank in the text. -/
def Unbroken (cs : List Char) : Prop :=
  ∀ c ∈ cs, isBlank c = false

instance (cs : List Char) : Decidable (Unbroken cs) :=
  List.decidableBAll (isBlank · = false) cs

/-- The text is the words in order, kept apart by blanks. -/
inductive Spaced : List (List Char) → List Char → Prop
  /-- There are no words in the empty text. -/
  | nil : Spaced [] []
  /-- A blank in front adds no word. -/
  | blank {c : Char} {cs : List Char} {words : List (List Char)} (hc : isBlank c = true)
      (hrest : Spaced words cs) : Spaced words (c :: cs)
  /-- A word in front reaches to a blank or to the end. -/
  | word {word cs : List Char} {words : List (List Char)} (hne : word ≠ [])
      (hword : Unbroken word) (hapart : ∀ c ∈ cs.head?, isBlank c = true)
      (hrest : Spaced words cs) : Spaced (word :: words) (word ++ cs)

variable {c : Char} {cs : List Char} {words : List (List Char)}

/-- Every text is spaced out from some words. -/
theorem exists_spaced (cs : List Char) : ∃ words, Spaced words cs := by
  induction cs with
  | nil => exact ⟨[], .nil⟩
  | cons c cs ih =>
      obtain ⟨words, h⟩ := ih
      cases hc : isBlank c with
      | true => exact ⟨words, .blank hc h⟩
      | false =>
          have hsingle : Unbroken [c] := List.forall_mem_singleton.mpr hc
          -- the character begins a word of its own, or it goes on with the first one
          cases h with
          | nil => exact ⟨[[c]], .word (by simp) hsingle (by simp) .nil⟩
          | blank hd hrest =>
              exact ⟨[c] :: words, .word (by simp) hsingle (by simpa using hd) (.blank hd hrest)⟩
          | @word word cs words _ hword hapart hrest =>
              have hlonger : Unbroken (c :: word) := List.forall_mem_cons.mpr ⟨hc, hword⟩
              exact ⟨(c :: word) :: words, .word (by simp) hlonger hapart hrest⟩

theorem wordsOf_cons_blank (hc : isBlank c = true) (cs : List Char) :
    wordsOf (c :: cs) = wordsOf cs :=
  wordsOf_append_blank hc [] cs

/-- A text without blanks is a single word. -/
theorem wordsOf_of_unbroken (hne : cs ≠ []) (h : Unbroken cs) : wordsOf cs = [cs] := by
  simp [wordsOf, pieces_of_not_sep h, hne]

/-- A text is cut into the words that it is spaced out from. -/
theorem Spaced.wordsOf_eq (h : Spaced words cs) : wordsOf cs = words := by
  induction h with
  | nil => rfl
  | blank hc _ ih => rw [wordsOf_cons_blank hc, ih]
  | @word word cs words hne hword hapart hrest ih =>
      cases cs with
      | nil => rw [List.append_nil, wordsOf_of_unbroken hne hword, ← ih, wordsOf_nil]
      | cons c cs =>
          have hc : isBlank c = true := hapart c rfl
          rw [wordsOf_append_blank hc, wordsOf_of_unbroken hne hword, ← ih, wordsOf_cons_blank hc,
            List.singleton_append]

/-- The words of a text are the only ones that it is spaced out from. -/
theorem spaced_iff_wordsOf_eq : Spaced words cs ↔ wordsOf cs = words := by
  refine ⟨Spaced.wordsOf_eq, ?_⟩
  rintro rfl
  obtain ⟨words, h⟩ := exists_spaced cs
  rwa [h.wordsOf_eq]

end Highlight.Text
