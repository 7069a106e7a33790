/-!
# Replacing a text in a text

Occurrences are replaced from left to right, and what has been replaced is not looked at again. So a
text is replaced part by part: an occurrence in front becomes the new text, and a character that no
occurrence begins with stays.
-/

namespace Highlight.Text

/-- Replaces every occurrence of `old` by `new`, once some characters of an occurrence have been
skipped. -/
def replaceBehind (old new : List Char) : Nat → List Char → List Char
  | _, [] => []
  | skipped + 1, _ :: rest => replaceBehind old new skipped rest
  | 0, c :: rest =>
      if old.isPrefixOf (c :: rest) then new ++ replaceBehind old new (old.length - 1) rest
      else c :: replaceBehind old new 0 rest

/-- Replaces every occurrence of `old` by `new`. -/
def replaceAll (old new s : List Char) : List Char := replaceBehind old new 0 s

variable {old new : List Char} {first : Char}

@[simp] theorem replaceAll_nil : replaceAll old new [] = [] := rfl

theorem replaceBehind_append (old new skipped rest : List Char) :
    replaceBehind old new skipped.length (skipped ++ rest) = replaceAll old new rest := by
  induction skipped with
  | nil => rfl
  | cons c skipped ih => exact ih

/-- An occurrence in front is replaced. -/
theorem replaceAll_old_append (rest : List Char) :
    replaceAll (first :: old) new (first :: old ++ rest) =
      new ++ replaceAll (first :: old) new rest := by
  have hfront : (first :: old).isPrefixOf (first :: (old ++ rest)) = true :=
    List.isPrefixOf_iff_prefix.mpr (List.prefix_append (first :: old) rest)
  rw [List.cons_append, replaceAll, replaceBehind, if_pos hfront]
  exact congrArg (new ++ ·) (replaceBehind_append (first :: old) new old rest)

/-- A character that no occurrence begins with stays. -/
theorem replaceAll_cons_of_not_prefix {c : Char} {rest : List Char}
    (h : ¬ old <+: c :: rest) : replaceAll old new (c :: rest) = c :: replaceAll old new rest := by
  have hfront : ¬ old.isPrefixOf (c :: rest) = true := fun hfront =>
    h (List.isPrefixOf_iff_prefix.mp hfront)
  rw [replaceAll, replaceBehind, if_neg hfront]
  rfl

theorem replaceAll_cons_of_ne {c : Char} (hc : c ≠ first) (rest : List Char) :
    replaceAll (first :: old) new (c :: rest) = c :: replaceAll (first :: old) new rest := by
  refine replaceAll_cons_of_not_prefix fun h => ?_
  exact hc (List.cons_prefix_cons.mp h).1.symm

/-- A text without the first character of `old` stays. -/
theorem replaceAll_append_of_not_mem {text : List Char} (htext : first ∉ text)
    (rest : List Char) :
    replaceAll (first :: old) new (text ++ rest) =
      text ++ replaceAll (first :: old) new rest := by
  induction text with
  | nil => rfl
  | cons c text ih =>
      simp only [List.mem_cons, not_or] at htext
      rw [List.cons_append, replaceAll_cons_of_ne (Ne.symm htext.1), ih htext.2]
      rfl

end Highlight.Text
