/-!
# Cutting text at separators

`pieces sep` cuts a list of characters at every separator; the separators are dropped, and every
other character survives exactly once and in order. A text without separators is a single piece, so
there is always at least one.

Words, dotted segments and comma lists are all obtained from this one function.
-/

namespace Highlight.Text

/-- Puts a character in front of the first piece. -/
def consPiece (c : Char) : List (List Char) → List (List Char)
  | [] => [[c]]
  | piece :: rest => (c :: piece) :: rest

/-- The pieces of a text between its separators, empty ones included. -/
def pieces (sep : Char → Bool) : List Char → List (List Char)
  | [] => [[]]
  | c :: cs => if sep c then [] :: pieces sep cs else consPiece c (pieces sep cs)

@[simp] theorem pieces_nil (sep : Char → Bool) : pieces sep [] = [[]] := rfl

/-- There is always a first piece. -/
theorem pieces_ne_nil (sep : Char → Bool) (cs : List Char) : pieces sep cs ≠ [] := by
  cases cs with
  | nil => simp
  | cons c cs =>
    unfold pieces
    split
    · simp
    · cases pieces sep cs <;> simp [consPiece]

/-- Cutting at a separator cuts the two sides on their own. -/
theorem pieces_append_sep {sep : Char → Bool} {c : Char} (hc : sep c = true)
    (left right : List Char) :
    pieces sep (left ++ c :: right) = pieces sep left ++ pieces sep right := by
  induction left with
  | nil => simp [pieces, hc]
  | cons d left ih =>
    simp only [List.cons_append, pieces]
    split
    · simp [ih]
    · rw [ih]
      cases h : pieces sep left with
      | nil => exact absurd h (pieces_ne_nil sep left)
      | cons piece rest => simp [consPiece]

/-- Without a separator there is nothing to cut. -/
theorem pieces_of_not_sep {sep : Char → Bool} {cs : List Char} (h : ∀ c ∈ cs, sep c = false) :
    pieces sep cs = [cs] := by
  induction cs with
  | nil => rfl
  | cons c cs ih =>
    obtain ⟨hc, hcs⟩ := List.forall_mem_cons.mp h
    rw [pieces, hc, ih hcs]
    rfl

/-- The pieces of a string at one separating character. -/
def piecesAt (sep : Char) (s : String) : List String :=
  (pieces (· == sep) s.toList).map String.ofList

end Highlight.Text
