import Highlight.Proofs.Text.Replacing
import Highlight.Text.Lines
import Highlight.Text.Pieces

/-!
# Lines and their breaks

Cutting a text into lines is the same as writing every break as a line feed and cutting at the line
feeds (`linesOf_eq_pieces`). Nothing is lost on the way: the lines with the breaks that were there
make up the text (`interleave_linesOf`).

All of it goes along the recursion of `linesOf`, whose four kinds of steps are a pair, a single
break, any other character, and the end of the text.
-/

namespace Highlight.Text

/-- The text with line feeds for breaks: pairs are rewritten first, and then what carriage returns
remain. -/
def unified (cs : List Char) : List Char :=
  replaceAll ['\r'] ['\n'] (replaceAll ['\r', '\n'] ['\n'] cs)

/-- The breaks of a text, in order. -/
def breaksOf : List Char → List (List Char)
  | [] => []
  | '\r' :: '\n' :: cs => ['\r', '\n'] :: breaksOf cs
  | c :: cs => if c = '\n' ∨ c = '\r' then [c] :: breaksOf cs else breaksOf cs

/-- Lines with breaks between them. -/
def interleave : List (List Char) → List (List Char) → List Char
  | line :: lines, lineBreak :: breaks => line ++ lineBreak ++ interleave lines breaks
  | lines, _ => lines.flatten

/-- How often a carriage return stands right in front of a line feed. -/
def pairCount (cs : List Char) : Nat := (cs.zip cs.tail).count ('\r', '\n')

/-! ### Steps -/

/-- No pair of carriage return and line feed begins with the character. -/
def BeginsNoPair (c : Char) (cs : List Char) : Prop := ∀ rest, c = '\r' → cs ≠ '\n' :: rest

variable {c : Char} {cs : List Char}

theorem linesOf_single (hpair : BeginsNoPair c cs) (hc : c = '\n' ∨ c = '\r') :
    linesOf (c :: cs) = [] :: linesOf cs := by
  rw [linesOf, if_pos hc]
  exact hpair

theorem linesOf_char (hc : ¬ (c = '\n' ∨ c = '\r')) :
    linesOf (c :: cs) = consPiece c (linesOf cs) := by
  rw [linesOf, if_neg hc]
  · cases linesOf cs <;> rfl
  · rintro rest rfl
    exact absurd (.inr rfl) hc

theorem unified_pair (cs : List Char) : unified ('\r' :: '\n' :: cs) = '\n' :: unified cs := by
  have hpair : replaceAll ['\r', '\n'] ['\n'] ('\r' :: '\n' :: cs) =
      '\n' :: replaceAll ['\r', '\n'] ['\n'] cs := replaceAll_old_append cs
  rw [unified, hpair, replaceAll_cons_of_ne (by decide)]
  rfl

theorem unified_single (hpair : BeginsNoPair c cs) (hc : c = '\n' ∨ c = '\r') :
    unified (c :: cs) = '\n' :: unified cs := by
  rcases hc with rfl | rfl
  · rw [unified, replaceAll_cons_of_ne (by decide), replaceAll_cons_of_ne (by decide), unified]
  · have hfront : ¬ ['\r', '\n'] <+: '\r' :: cs := by
      rintro ⟨rest, hrest⟩
      exact hpair rest rfl (List.cons.inj hrest).2.symm
    rw [unified, replaceAll_cons_of_not_prefix hfront]
    exact replaceAll_old_append _

theorem unified_char (hc : ¬ (c = '\n' ∨ c = '\r')) : unified (c :: cs) = c :: unified cs := by
  obtain ⟨-, hcr⟩ := not_or.mp hc
  rw [unified, replaceAll_cons_of_ne hcr, replaceAll_cons_of_ne hcr, unified]

/-! ### Lines are pieces -/

theorem linesOf_eq_pieces (cs : List Char) : linesOf cs = pieces (· == '\n') (unified cs) := by
  fun_induction breaksOf cs with
  | case1 => rfl
  | case2 cs ih =>
      rw [linesOf, unified_pair, ih]
      rfl
  | case3 c cs hpair hc ih =>
      rw [linesOf_single hpair hc, unified_single hpair hc, ih]
      rfl
  | case4 c cs _ hc ih =>
      have hlf : ¬ (c == '\n') = true := by simpa using (not_or.mp hc).1
      rw [linesOf_char hc, unified_char hc, pieces, if_neg hlf, ih]

/-- Lines are without breaks. -/
theorem not_break_of_mem_linesOf {cs line : List Char} (hline : line ∈ linesOf cs) :
    ∀ c ∈ line, c ≠ '\n' ∧ c ≠ '\r' := by
  fun_induction linesOf cs generalizing line with
  | case1 => simp_all
  | case2 cs ih | case3 _ cs _ _ ih =>
      rcases List.mem_cons.mp hline with rfl | hline
      · simp
      · exact ih hline
  | case4 c cs _ hc hnil => exact absurd hnil (linesOf_ne_nil cs)
  | case5 c cs _ hc first rest hlines ih =>
      rw [hlines] at ih
      rcases List.mem_cons.mp hline with rfl | hline
      · intro d hd
        rcases List.mem_cons.mp hd with rfl | hd
        · exact not_or.mp hc
        · exact ih List.mem_cons_self d hd
      · exact ih (List.mem_cons_of_mem first hline)

/-! ### Breaks -/

theorem length_consPiece {lines : List (List Char)} (hlines : lines ≠ []) :
    (consPiece c lines).length = lines.length := by
  cases lines with
  | nil => exact absurd rfl hlines
  | cons line rest => rfl

/-- There is one line more than there are breaks. -/
theorem length_linesOf (cs : List Char) : (linesOf cs).length = (breaksOf cs).length + 1 := by
  fun_induction breaksOf cs with
  | case1 => rfl
  | case2 cs ih => rw [linesOf, List.length_cons, ih, List.length_cons]
  | case3 c cs hpair hc ih => rw [linesOf_single hpair hc, List.length_cons, ih, List.length_cons]
  | case4 c cs _ hc ih => rw [linesOf_char hc, length_consPiece (linesOf_ne_nil cs), ih]

theorem mem_breaksOf {lineBreak : List Char} (hbreak : lineBreak ∈ breaksOf cs) :
    lineBreak ∈ [['\r', '\n'], ['\r'], ['\n']] := by
  fun_induction breaksOf cs with
  | case1 => cases hbreak
  | case2 cs ih =>
      rcases List.mem_cons.mp hbreak with rfl | hbreak
      · exact List.mem_cons_self
      · exact ih hbreak
  | case3 c cs _ hc ih =>
      rcases List.mem_cons.mp hbreak with rfl | hbreak
      · rcases hc with rfl | rfl <;> simp
      · exact ih hbreak
  | case4 c cs _ _ ih => exact ih hbreak

theorem interleave_consPiece {lines : List (List Char)} (hlines : lines ≠ [])
    (breaks : List (List Char)) :
    interleave (consPiece c lines) breaks = c :: interleave lines breaks := by
  cases lines with
  | nil => exact absurd rfl hlines
  | cons line rest => cases breaks <;> rfl

/-- The lines with the breaks between them make up the text. -/
theorem interleave_linesOf (cs : List Char) : interleave (linesOf cs) (breaksOf cs) = cs := by
  fun_induction breaksOf cs with
  | case1 => rfl
  | case2 cs ih =>
      rw [linesOf, interleave, ih]
      rfl
  | case3 c cs hpair hc ih =>
      rw [linesOf_single hpair hc, interleave, ih]
      rfl
  | case4 c cs _ hc ih =>
      rw [linesOf_char hc, interleave_consPiece (linesOf_ne_nil cs), ih]

theorem pairCount_cons (c : Char) (cs : List Char) :
    pairCount (c :: cs) =
      (if c = '\r' ∧ cs.head? = some '\n' then 1 else 0) + pairCount cs := by
  cases cs with
  | nil => simp [pairCount]
  | cons d cs =>
      simp only [pairCount, List.tail_cons, List.zip_cons_cons, List.count_cons, List.head?_cons,
        Option.some.injEq, beq_iff_eq, Prod.mk.injEq]
      omega

/-- Every line feed and every carriage return is a break, but the two of a pair are one. -/
theorem length_breaksOf (cs : List Char) :
    (breaksOf cs).length + pairCount cs = cs.count '\n' + cs.count '\r' := by
  fun_induction breaksOf cs with
  | case1 => rfl
  | case2 cs ih =>
      simp [pairCount_cons]
      omega
  | case3 c cs hpair hc ih =>
      have hnone : ¬ (c = '\r' ∧ cs.head? = some '\n') := by
        rintro ⟨hcr, hhead⟩
        obtain ⟨rest, hrest⟩ := List.head?_eq_some_iff.mp hhead
        exact hpair rest hcr hrest
      rw [pairCount_cons, if_neg hnone]
      rcases hc with rfl | rfl
      · simp
        omega
      · simp
        omega
  | case4 c cs _ hc ih =>
      obtain ⟨hlf, hcr⟩ := not_or.mp hc
      rw [pairCount_cons, if_neg (fun h => hcr h.1), List.count_cons_of_ne hlf,
        List.count_cons_of_ne hcr, ← ih, Nat.zero_add]

end Highlight.Text
