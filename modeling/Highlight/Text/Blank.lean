import Highlight.Text.Pieces

/-!
# Blank characters and words

Blank characters are those with the Unicode property White_Space: 25 characters in ten ranges. A
word is a maximal run of characters that are not blank, so words are never empty and the amount and
kind of blank around them does not matter.
-/

namespace Highlight.Text

/-- Closed ranges of the blank code points, ascending and apart. -/
def blankRanges : List (Nat × Nat) :=
  [(0x09, 0x0D), (0x20, 0x20), (0x85, 0x85), (0xA0, 0xA0), (0x1680, 0x1680), (0x2000, 0x200A),
   (0x2028, 0x2029), (0x202F, 0x202F), (0x205F, 0x205F), (0x3000, 0x3000)]

/-- Whether the character separates words. -/
def isBlank (c : Char) : Bool :=
  blankRanges.any fun range => range.1 ≤ c.toNat && c.toNat ≤ range.2

/-- The words of a text, in order. -/
def wordsOf (cs : List Char) : List (List Char) :=
  (pieces isBlank cs).filter fun word => !word.isEmpty

/-- The words of a string, in order. -/
def words (s : String) : List String :=
  (wordsOf s.toList).map String.ofList

@[simp] theorem wordsOf_nil : wordsOf [] = [] := rfl

/-- Words on the two sides of a blank are found independently. -/
theorem wordsOf_append_blank {c : Char} (hc : isBlank c = true) (left right : List Char) :
    wordsOf (left ++ c :: right) = wordsOf left ++ wordsOf right := by
  simp [wordsOf, pieces_append_sep hc]

end Highlight.Text
