import Highlight.Proofs.Text.Words
import Highlight.Token.Kind
import Mathlib.Logic.Basic
import Mathlib.Tactic.SplitIfs

/-!
# The kind of a scope path

A kind is looked for from the innermost scope outwards, but from the first segment of a scope
onwards, and the first hit of both searches ends them. Searches over two lists in a row are searches
over one of them and then the other (`ofPath?_append`, `ofScope?_append_dot`), so paths are put
together with the inner path in charge, and scopes with the front segments in charge.

These two laws, with the kinds of single segments, leave nothing open (`Composes.unique`): any path
is put together from its scopes and any scope from its segments.
-/

namespace Highlight.TokenKind

open Text (Spaced Unbroken wordsOf)

/-- The segments that tell a kind. -/
def tellingSegments : List String := ["comment", "string", "regex", "regexp"]

/-- Some segment of the scope tells a kind. -/
def ScopeTells (scope : String) : Prop :=
  ∃ segment ∈ Text.piecesAt '.' scope, segment ∈ tellingSegments

/-- Some scope of the path tells a kind. -/
def PathTells (scopes : String) : Prop :=
  ∃ scope ∈ Text.words scopes, ScopeTells scope

instance (scope : String) : Decidable (ScopeTells scope) :=
  List.decidableBEx (· ∈ tellingSegments) (Text.piecesAt '.' scope)

instance (scopes : String) : Decidable (PathTells scopes) :=
  List.decidableBEx ScopeTells (Text.words scopes)

/-- What puts the kind of a path together from those of its parts. -/
structure Composes (infer : String → TokenKind) : Prop where
  /-- The inner path decides if it tells a kind, and the outer one otherwise. -/
  path (outer inner : String) :
    infer (outer ++ " " ++ inner) = if PathTells inner then infer inner else infer outer
  /-- Within a scope, the front segments decide if they tell a kind, and the others otherwise. -/
  scope (front back : String) : Unbroken front.toList → Unbroken back.toList →
    infer (front ++ "." ++ back) = if ScopeTells front then infer front else infer back
  /-- All ways to space a path out from the same scopes come to the same. -/
  spacing (scopes : List (List Char)) (s t : String) :
    Spaced scopes s.toList → Spaced scopes t.toList → infer s = infer t
  /-- A path tells a kind exactly if one of its scopes does. -/
  silent (scopes : String) : infer scopes = other ↔ ¬ PathTells scopes
  /-- The kinds of the segments that tell one. -/
  segments : infer "comment" = comment ∧ infer "string" = string ∧
    infer "regex" = regex ∧ infer "regexp" = regex

/-! ### Segments, scopes and paths -/

/-- The kind that a path tells: that of its innermost telling scope. -/
def ofPath? (scopes : List (List Char)) : Option TokenKind :=
  scopes.reverse.findSome? ofScope?

theorem ofScopes_eq (scopes : String) :
    ofScopes scopes = (ofPath? (wordsOf scopes.toList)).getD other :=
  rfl

theorem isSome_ofSegment? {segment : List Char} :
    (ofSegment? segment).isSome ↔ String.ofList segment ∈ tellingSegments := by
  have hname (name : String) : String.ofList segment = name ↔ segment = name.toList := by
    rw [← String.toList_inj, String.toList_ofList]
  simp only [tellingSegments, List.mem_cons, List.not_mem_nil, or_false, hname]
  unfold ofSegment?
  split_ifs <;> simp_all

theorem ofSegment?_ne_other (segment : List Char) : ofSegment? segment ≠ some other := by
  unfold ofSegment?
  split_ifs <;> simp

/-- The segments in front are looked at first. -/
theorem ofScope?_append_dot (front back : List Char) :
    ofScope? (front ++ '.' :: back) = (ofScope? front).or (ofScope? back) := by
  rw [ofScope?, Text.pieces_append_sep rfl, List.findSome?_append]
  rfl

theorem isSome_ofScope? {scope : List Char} :
    (ofScope? scope).isSome ↔ ScopeTells (String.ofList scope) := by
  simp [ofScope?, ScopeTells, Text.piecesAt, isSome_ofSegment?]

/-- The scopes further in are looked at first. -/
theorem ofPath?_append (outer inner : List (List Char)) :
    ofPath? (outer ++ inner) = (ofPath? inner).or (ofPath? outer) := by
  rw [ofPath?, List.reverse_append, List.findSome?_append]
  rfl

theorem isSome_ofPath? {scopes : String} :
    (ofPath? (wordsOf scopes.toList)).isSome ↔ PathTells scopes := by
  simp [ofPath?, PathTells, Text.words, isSome_ofScope?]

/-- What is told is never that a token is anything else. -/
theorem ofPath?_ne_other (scopes : List (List Char)) : ofPath? scopes ≠ some other := by
  intro h
  obtain ⟨scope, -, hscope⟩ := List.exists_of_findSome?_eq_some h
  obtain ⟨segment, -, hsegment⟩ := List.exists_of_findSome?_eq_some hscope
  exact ofSegment?_ne_other segment hsegment

/-- A text without blanks is a scope, or there is nothing to tell. -/
theorem ofPath?_of_unbroken {scope : List Char} (h : Unbroken scope) :
    ofPath? (wordsOf scope) = ofScope? scope := by
  by_cases hne : scope = []
  · rw [hne]
    rfl
  · rw [Text.wordsOf_of_unbroken hne h]
    simp [ofPath?]

theorem pathTells_iff_of_unbroken {scope : String} (h : Unbroken scope.toList) :
    PathTells scope ↔ ScopeTells scope := by
  rw [← isSome_ofPath?, ofPath?_of_unbroken h, isSome_ofScope?, String.ofList_toList]

theorem getD_or (first second : Option TokenKind) :
    (first.or second).getD other =
      if first.isSome then first.getD other else second.getD other := by
  cases first <;> rfl

/-! ### The laws hold -/

theorem ofScopes_append_space (outer inner : String) :
    ofScopes (outer ++ " " ++ inner) =
      if PathTells inner then ofScopes inner else ofScopes outer := by
  have hchars : (outer ++ " " ++ inner).toList = outer.toList ++ ' ' :: inner.toList := by
    simp [String.toList_append]
  have hblank : Text.isBlank ' ' = true := by decide
  rw [ofScopes_eq, hchars, Text.wordsOf_append_blank hblank, ofPath?_append, getD_or]
  simp only [isSome_ofPath?, ofScopes_eq]

theorem ofScopes_append_dot {front back : String} (hfront : Unbroken front.toList)
    (hback : Unbroken back.toList) :
    ofScopes (front ++ "." ++ back) =
      if ScopeTells front then ofScopes front else ofScopes back := by
  have hchars : (front ++ "." ++ back).toList = front.toList ++ '.' :: back.toList := by
    simp [String.toList_append]
  have hdot : Text.isBlank '.' = false := by decide
  have hscope : Unbroken (front.toList ++ '.' :: back.toList) :=
    List.forall_mem_append.mpr ⟨hfront, List.forall_mem_cons.mpr ⟨hdot, hback⟩⟩
  rw [ofScopes_eq, hchars, ofPath?_of_unbroken hscope, ofScope?_append_dot, getD_or, ofScopes_eq,
    ofScopes_eq, ofPath?_of_unbroken hfront, ofPath?_of_unbroken hback]
  simp only [isSome_ofScope?, String.ofList_toList]

theorem ofScopes_eq_of_spaced {scopes : List (List Char)} {s t : String}
    (hs : Spaced scopes s.toList) (ht : Spaced scopes t.toList) : ofScopes s = ofScopes t := by
  rw [ofScopes_eq, ofScopes_eq, hs.wordsOf_eq, ht.wordsOf_eq]

theorem ofScopes_eq_other_iff (scopes : String) : ofScopes scopes = other ↔ ¬ PathTells scopes := by
  rw [ofScopes_eq, ← isSome_ofPath?]
  cases h : ofPath? (wordsOf scopes.toList) with
  | none => simp
  | some kind =>
      have hkind : kind ≠ other := fun heq => ofPath?_ne_other _ (heq ▸ h)
      simpa using hkind

theorem composes_ofScopes : Composes ofScopes where
  path := ofScopes_append_space
  scope _ _ := ofScopes_append_dot
  spacing _ _ _ := ofScopes_eq_of_spaced
  silent := ofScopes_eq_other_iff
  segments := by decide

/-! ### The laws leave nothing open -/

namespace Composes

variable {infer infer' : String → TokenKind}

theorem eq_of_silent (h : Composes infer) (h' : Composes infer') {scopes : String}
    (hsilent : ¬ PathTells scopes) : infer scopes = infer' scopes := by
  rw [(h.silent scopes).mpr hsilent, (h'.silent scopes).mpr hsilent]

/-- A scope without dots is a segment. -/
theorem eq_of_segment (h : Composes infer) (h' : Composes infer') {segment : List Char}
    (hsegment : Unbroken segment) (hdot : '.' ∉ segment) :
    infer (String.ofList segment) = infer' (String.ofList segment) := by
  by_cases htells : String.ofList segment ∈ tellingSegments
  · obtain ⟨hcomment, hstring, hregex, hregexp⟩ := h.segments
    obtain ⟨hcomment', hstring', hregex', hregexp'⟩ := h'.segments
    simp only [tellingSegments, List.mem_cons, List.not_mem_nil, or_false] at htells
    rcases htells with hname | hname | hname | hname <;> rw [hname]
    · rw [hcomment, hcomment']
    · rw [hstring, hstring']
    · rw [hregex, hregex']
    · rw [hregexp, hregexp']
  · refine h.eq_of_silent h' ?_
    have hplain : ∀ c ∈ segment, (c == '.') = false := by
      intro c hc
      simpa using ne_of_mem_of_not_mem hc hdot
    rw [pathTells_iff_of_unbroken (by simpa using hsegment)]
    simpa [ScopeTells, Text.piecesAt, Text.pieces_of_not_sep hplain] using htells

/-- A scope is put together from its segments. -/
theorem eq_of_unbroken (h : Composes infer) (h' : Composes infer') {scope : List Char}
    (hscope : Unbroken scope) : infer (String.ofList scope) = infer' (String.ofList scope) := by
  induction hlength : scope.length using Nat.strongRecOn generalizing scope with
  | ind n ih =>
      by_cases hdot : '.' ∈ scope
      · -- cut at any dot, both sides are shorter
        obtain ⟨front, back, rfl⟩ := List.append_of_mem hdot
        obtain ⟨hfront, hrest⟩ := List.forall_mem_append.mp hscope
        have hback : Unbroken back := (List.forall_mem_cons.mp hrest).2
        have hfront' : Unbroken (String.ofList front).toList := by rwa [String.toList_ofList]
        have hback' : Unbroken (String.ofList back).toList := by rwa [String.toList_ofList]
        have hchars : String.ofList (front ++ '.' :: back) =
            String.ofList front ++ "." ++ String.ofList back := by
          simp [← String.toList_inj]
        simp only [List.length_append, List.length_cons] at hlength
        rw [hchars, h.scope _ _ hfront' hback', h'.scope _ _ hfront' hback',
          ih _ (by omega) hfront rfl, ih _ (by omega) hback rfl]
      · exact h.eq_of_segment h' hscope hdot

/-- A path is put together from its scopes. -/
theorem eq_of_spaced (h : Composes infer) (h' : Composes infer') {scopes : List (List Char)}
    {text : List Char} (hspaced : Spaced scopes text) :
    infer (String.ofList text) = infer' (String.ofList text) := by
  induction hspaced with
  | nil => exact h.eq_of_silent h' (by decide)
  | @blank c cs scopes hc hrest ih =>
      have hs : Spaced scopes (String.ofList (c :: cs)).toList := by
        simpa using Spaced.blank hc hrest
      have ht : Spaced scopes (String.ofList cs).toList := by simpa using hrest
      rw [h.spacing _ _ _ hs ht, h'.spacing _ _ _ hs ht, ih]
  | @word scope cs scopes hne hscope hapart hrest ih =>
      -- put a single space behind the first scope, whatever was there
      have hs : Spaced (scope :: scopes) (String.ofList (scope ++ cs)).toList := by
        simpa using Spaced.word hne hscope hapart hrest
      have ht : Spaced (scope :: scopes)
          (String.ofList scope ++ " " ++ String.ofList cs).toList := by
        have hblank : Text.isBlank ' ' = true := by decide
        simpa using Spaced.word hne hscope (by simpa using hblank) (.blank hblank hrest)
      rw [h.spacing _ _ _ hs ht, h'.spacing _ _ _ hs ht, h.path, h'.path, ih,
        h.eq_of_unbroken h' hscope]

/-- Only one inference obeys the laws. -/
theorem unique (h : Composes infer) (h' : Composes infer') : infer = infer' := by
  funext s
  obtain ⟨scopes, hspaced⟩ := Text.exists_spaced s.toList
  simpa using h.eq_of_spaced h' hspaced

end Composes

/-! ### The main result -/

/-- **Kinds of paths are put together from kinds of parts.** The scopes of a path are the words that
it is spaced out from. With a space in between, the inner path decides if one of its scopes has a
telling segment; with a dot in between, the front of a scope decides if it has one; and blanks
between and around the scopes make no difference. A kind is told exactly if there is a telling
segment. Whatever infers kinds of paths in this way is the same inference. -/
theorem kinds_compose :
    (∀ scopes text, Spaced scopes text ↔ wordsOf text = scopes) ∧
      Composes ofScopes ∧ ∀ infer, Composes infer → infer = ofScopes :=
  ⟨fun _ _ => Text.spaced_iff_wordsOf_eq, composes_ofScopes,
    fun _ hcomposes => hcomposes.unique composes_ofScopes⟩

/-- Blanks of several kinds around the same scopes, and a scope and a path whose parts tell
different kinds. -/
theorem kinds_compose_mixed :
    let scopes := ["comment.line".toList, "constant.regexp".toList]
    let path := "comment.line constant.regexp"
    let respaced := "\tcomment.line\u3000\u0085constant.regexp\n"
    (Spaced scopes path.toList ∧ Spaced scopes respaced.toList ∧
        ofScopes respaced = ofScopes path) ∧
      ofScopes ("comment.line" ++ " " ++ "constant.regexp") = regex ∧
      (Unbroken "string.quoted".toList ∧ Unbroken "comment".toList ∧
        ofScopes ("string.quoted" ++ "." ++ "comment") = string) := by
  intro scopes path respaced
  obtain ⟨hspaced, hlaws, -⟩ := kinds_compose
  have hpath : Spaced scopes path.toList := (hspaced _ _).mpr (by decide)
  have hrespaced : Spaced scopes respaced.toList := (hspaced _ _).mpr (by decide)
  have hquoted : Unbroken "string.quoted".toList := by decide
  have hcomment : Unbroken "comment".toList := by decide
  exact ⟨⟨hpath, hrespaced, hlaws.spacing _ _ _ hrespaced hpath⟩,
    (hlaws.path _ _).trans (by decide),
    ⟨hquoted, hcomment, (hlaws.scope _ _ hquoted hcomment).trans (by decide)⟩⟩

end Highlight.TokenKind
