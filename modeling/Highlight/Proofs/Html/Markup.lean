/-!
# Tags and text

A tag goes from a `<` to the next `>`; whatever is outside of tags is text. A character of a tag is
never looked at again, so text without `<` in front of a tag and a tag that is closed are read off
one after the other.
-/

namespace Highlight.Html

/-- A part of a marked up text. -/
inductive Piece where
  | char (c : Char)
  | tag (chars : List Char)
  deriving DecidableEq

namespace Piece

def char? : Piece → Option Char
  | char c => some c
  | tag _ => none

def tag? : Piece → Option (List Char)
  | char _ => none
  | tag chars => some chars

end Piece

/-- The pieces of a text, behind the beginning of a tag if there is one. A tag that is never closed
is left out. -/
def markupFrom : Option (List Char) → List Char → List Piece
  | _, [] => []
  | none, c :: cs => if c = '<' then markupFrom (some [c]) cs else .char c :: markupFrom none cs
  | some front, c :: cs =>
      if c = '>' then .tag (front ++ [c]) :: markupFrom none cs
      else markupFrom (some (front ++ [c])) cs

/-- The pieces of a text. -/
def markup (s : List Char) : List Piece := markupFrom none s

/-- What is left of a text when its tags are deleted. -/
def withoutTags (s : List Char) : List Char := (markup s).filterMap Piece.char?

/-- The tags of a text. -/
def tags (s : List Char) : List (List Char) := (markup s).filterMap Piece.tag?

theorem markup_text_append {text : List Char} (htext : '<' ∉ text) (rest : List Char) :
    markup (text ++ rest) = text.map .char ++ markup rest := by
  induction text with
  | nil => rfl
  | cons c text ih =>
      simp only [List.mem_cons, not_or] at htext
      obtain ⟨hc, htext⟩ := htext
      have hrest := ih htext
      simp only [markup] at hrest
      simp [markup, markupFrom, Ne.symm hc, hrest]

theorem markupFrom_tag_append {body : List Char} (hbody : '>' ∉ body) (front rest : List Char) :
    markupFrom (some front) (body ++ '>' :: rest) =
      .tag (front ++ body ++ ['>']) :: markupFrom none rest := by
  induction body generalizing front with
  | nil => simp [markupFrom]
  | cons c body ih =>
      simp only [List.mem_cons, not_or] at hbody
      obtain ⟨hc, hbody⟩ := hbody
      simp [markupFrom, Ne.symm hc, ih hbody]

/-- The characters make up one tag: they are between brackets and have no brackets inside. -/
def IsTag (chars : List Char) : Prop :=
  ∃ body, chars = '<' :: body ++ ['>'] ∧ '>' ∉ body

theorem markup_tag_append {tag : List Char} (htag : IsTag tag) (rest : List Char) :
    markup (tag ++ rest) = .tag tag :: markup rest := by
  obtain ⟨body, rfl, hbody⟩ := htag
  simp [markup, markupFrom, markupFrom_tag_append hbody]

end Highlight.Html
