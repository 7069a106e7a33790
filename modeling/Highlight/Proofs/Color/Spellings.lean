import Highlight.Fault
import Mathlib.Tactic.SplitIfs
import Mathlib.Tactic.Tauto

/-!
# Which texts are colors

Without the number signs in front, a color is one of the two names, or three, four, six or eight
hexadecimal digits and nothing else (`IsHexBody`). Reading is a little more generous: a pair is read
as a number, and numbers may have a sign, so a plus sign may stand in place of the first digit of a
pair (`IsSignedBody`). No other text is a color (`parse_classifies`).

A text is cut into components by its length alone, and it is a color if every component has a value.
So all that has to be known of the digits is which components have one
(`isSome_componentValue?_single`, `isSome_componentValue?_pair`).
-/

namespace Highlight

/-! ### The grammar -/

/-- A hexadecimal digit of either case. -/
def IsHexDigit (c : Char) : Prop :=
  ('0' ≤ c ∧ c ≤ '9') ∨ ('a' ≤ c ∧ c ≤ 'f') ∨ ('A' ≤ c ∧ c ≤ 'F')

instance : DecidablePred IsHexDigit := fun _ => inferInstanceAs (Decidable (_ ∨ _ ∨ _))

/-- A text without the number signs in front of it. -/
def withoutSigns (s : String) : List Char := s.toList.dropWhile (· == '#')

/-- One of the two names. -/
def IsColorName (body : List Char) : Prop := body = "white".toList ∨ body = "black".toList

/-- A name, or three, four, six or eight digits and nothing else. -/
def IsHexBody (body : List Char) : Prop :=
  IsColorName body ∨ (body.length ∈ [3, 4, 6, 8] ∧ ∀ c ∈ body, IsHexDigit c)

/-- Three or four pairs, each of two digits or of a plus sign and a digit. -/
def IsPaired (body : List Char) : Prop :=
  body.length ∈ [6, 8] ∧
    ∀ entry ∈ body.zipIdx, IsHexDigit entry.1 ∨ (entry.1 = '+' ∧ entry.2 % 2 = 0)

/-- Pairs of which at least one has a plus sign. -/
def IsSignedBody (body : List Char) : Prop := '+' ∈ body ∧ IsPaired body

-- the characters of the text are tried, not all characters there are
instance : DecidablePred IsHexBody := fun body =>
  have : Decidable (∀ c ∈ body, IsHexDigit c) := List.decidableBAll IsHexDigit body
  inferInstanceAs (Decidable ((_ ∨ _) ∨ _ ∧ _))

instance : DecidablePred IsSignedBody := fun _ => inferInstanceAs (Decidable (_ ∧ _ ∧ _))

theorem not_isHexDigit_plus : ¬ IsHexDigit '+' := by decide

theorem IsHexDigit.toNat_lt {c : Char} (hc : IsHexDigit c) : c.toNat < 128 := by
  have h9 : ('9' : Char).toNat = 57 := rfl
  have hf : ('f' : Char).toNat = 102 := rfl
  have hF : ('F' : Char).toNat = 70 := rfl
  simp only [IsHexDigit, Char.le_def, UInt32.le_iff_toNat_le, Char.toNat_val] at hc
  omega

/-- A text of digits has no plus sign. -/
theorem IsHexBody.not_isSignedBody {body : List Char} (h : IsHexBody body) :
    ¬ IsSignedBody body := by
  rintro ⟨hplus, hlength, -⟩
  rcases h with (rfl | rfl) | ⟨-, hdigits⟩
  · exact absurd hlength (by decide)
  · exact absurd hlength (by decide)
  · exact not_isHexDigit_plus (hdigits '+' hplus)

/-- Without plus signs, pairs are digits. -/
theorem isPaired_iff {body : List Char} :
    IsPaired body ↔
      (body.length ∈ [6, 8] ∧ ∀ c ∈ body, IsHexDigit c) ∨ IsSignedBody body := by
  constructor
  · intro hpaired
    by_cases hplus : '+' ∈ body
    · exact .inr ⟨hplus, hpaired⟩
    · refine .inl ⟨hpaired.1, fun c hc => ?_⟩
      obtain ⟨i, hi⟩ := List.getElem?_of_mem hc
      refine (hpaired.2 (c, i) (List.mem_zipIdx_iff_getElem?.mpr hi)).resolve_right ?_
      rintro ⟨rfl, -⟩
      exact hplus hc
  · rintro (⟨hlength, hdigits⟩ | ⟨-, hpaired⟩)
    · exact ⟨hlength, fun entry hentry => .inl (hdigits _ (List.fst_mem_of_mem_zipIdx hentry))⟩
    · exact hpaired

theorem IsPaired.toNat_lt {body : List Char} (h : IsPaired body) : ∀ c ∈ body, c.toNat < 128 := by
  intro c hc
  obtain ⟨i, hi⟩ := List.getElem?_of_mem hc
  rcases h.2 (c, i) (List.mem_zipIdx_iff_getElem?.mpr hi) with hdigit | ⟨rfl, -⟩
  · exact hdigit.toNat_lt
  · decide

namespace Color

/-! ### Components -/

theorem isSome_hexValue? {c : Char} : (Text.hexValue? c).isSome ↔ IsHexDigit c := by
  unfold Text.hexValue? IsHexDigit
  split_ifs <;> simp [*]

theorem isSome_componentValue?_single {d : Char} :
    (componentValue? [d]).isSome ↔ IsHexDigit d :=
  isSome_hexValue?

/-- A pair is two digits, or a plus sign and a digit. -/
theorem isSome_componentValue?_pair {s d : Char} :
    (componentValue? [s, d]).isSome ↔ (IsHexDigit s ∨ s = '+') ∧ IsHexDigit d := by
  rw [← isSome_hexValue? (c := s), ← isSome_hexValue? (c := d), componentValue?]
  split_ifs with hplus
  · simp [hplus]
  · cases Text.hexValue? s <;> cases Text.hexValue? d <;> simp [hplus]

/-- Every text of one of the four lengths is cut into components. -/
theorem isSome_components? {body : List Char} (hlength : body.length ∈ [3, 4, 6, 8]) :
    (components? body).isSome := by
  simp only [List.mem_cons, List.not_mem_nil, or_false] at hlength
  rcases hlength with hlength | hlength | hlength | hlength
  · match body, hlength with | [_, _, _], _ => rfl
  · match body, hlength with | [_, _, _, _], _ => rfl
  · match body, hlength with | [_, _, _, _, _, _], _ => rfl
  · match body, hlength with | [_, _, _, _, _, _, _, _], _ => rfl

/-- The text is cut into components which all have a value. -/
def IsReadable (body : List Char) : Prop :=
  ∃ parts factor, components? body = some (parts, factor) ∧
    ∀ part ∈ parts, (componentValue? part).isSome

/-- The length of a text decides whether its characters are read one by one or in pairs. -/
theorem isReadable_iff {body : List Char} :
    IsReadable body ↔
      (body.length ∈ [3, 4] ∧ ∀ c ∈ body, IsHexDigit c) ∨ IsPaired body := by
  unfold IsReadable IsPaired
  cases hcut : components? body with
  | none =>
      have hlength : body.length ∉ [3, 4, 6, 8] := fun h => by
        simpa [hcut] using isSome_components? h
      simp only [List.mem_cons, List.not_mem_nil, or_false, not_or] at hlength
      simp [hlength]
  | some cut =>
      unfold components? at hcut
      split at hcut
      · cases hcut
        simp [isSome_componentValue?_single]
      · cases hcut
        simp [isSome_componentValue?_single]
      · cases hcut
        simp [isSome_componentValue?_pair, and_assoc]
      · cases hcut
        simp [isSome_componentValue?_pair, and_assoc]
      · cases hcut

theorem IsReadable.toNat_lt {body : List Char} (h : IsReadable body) :
    ∀ c ∈ body, c.toNat < 128 := by
  rcases isReadable_iff.mp h with ⟨-, hdigits⟩ | hpaired
  · exact fun c hc => (hdigits c hc).toNat_lt
  · exact hpaired.toNat_lt

/-- What is readable, and the two names, make up the grammar. -/
theorem isReadable_or_isColorName {body : List Char} :
    IsColorName body ∨ IsReadable body ↔ IsHexBody body ∨ IsSignedBody body := by
  rw [isReadable_iff, isPaired_iff, IsHexBody]
  simp only [List.mem_cons, List.not_mem_nil, or_false]
  tauto

/-! ### Reading -/

theorem exists_mapM_channel_iff (factor : Nat) {parts : List (List Char)} :
    (∃ channels, parts.mapM (channel factor) = .ok channels) ↔
      ∀ part ∈ parts, (componentValue? part).isSome := by
  induction parts with
  | nil => simp [pure, Except.pure]
  | cons part parts ih =>
      rw [List.mapM_cons, List.forall_mem_cons, ← ih]
      cases hvalue : componentValue? part with
      | none =>
          have hhead : channel factor part = .error (.component (String.ofList part)) := by
            rw [channel, hvalue]
          simp [hhead, bind, Except.bind]
      | some value =>
          have hhead : channel factor part = .ok (value * factor).toUInt8 := by
            rw [channel, hvalue]
          rw [hhead]
          cases parts.mapM (channel factor) with
          | error fault => simp [bind, Except.bind]
          | ok channels => simp [bind, Except.bind, pure, Except.pure]

/-- A text is read if it is a name or has components with values. -/
theorem exists_ofHexBody_iff {body : List Char} :
    (∃ color, ofHexBody body = .ok color) ↔ IsColorName body ∨ IsReadable body := by
  by_cases hname : IsColorName body
  · rcases hname with rfl | rfl
    · simp [ofHexBody, IsColorName]
    · simp [ofHexBody, IsColorName]
  · have hwhite : body ≠ "white".toList := fun h => hname (.inl h)
    have hblack : body ≠ "black".toList := fun h => hname (.inr h)
    rw [ofHexBody, if_neg hwhite, if_neg hblack, or_iff_right hname]
    by_cases hascii : (body.any fun c => 128 ≤ c.toNat) = true
    · -- a character beyond ASCII is in the way, and it is no part of a component with a value
      rw [if_pos hascii]
      obtain ⟨c, hc, hlarge⟩ := List.any_eq_true.mp hascii
      have hnot : ¬ IsReadable body := fun h =>
        absurd (h.toNat_lt c hc) (Nat.not_lt.mpr (of_decide_eq_true hlarge))
      simp [hnot]
    · rw [if_neg hascii]
      cases hcut : components? body with
      | none => simp [IsReadable, hcut]
      | some cut =>
          obtain ⟨parts, factor⟩ := cut
          have hreadable : IsReadable body ↔ ∀ part ∈ parts, (componentValue? part).isSome := by
            simp [IsReadable, hcut]
          rw [hreadable, ← exists_mapM_channel_iff factor]
          cases hchannels : parts.mapM (channel factor) with
          | error fault => simp [hchannels, Functor.map, Except.map]
          | ok channels => simp [hchannels, Functor.map, Except.map]

theorem exists_parse_iff {s : String} :
    (∃ color, parse s = .ok color) ↔
      IsHexBody (withoutSigns s) ∨ IsSignedBody (withoutSigns s) := by
  rw [← isReadable_or_isColorName, ← exists_ofHexBody_iff]
  unfold parse ofHex withoutSigns
  cases ofHexBody (s.toList.dropWhile (· == '#')) with
  | error fault => simp [Except.mapError]
  | ok color => simp [Except.mapError]

/-- A text that is no color is kept as it was given. -/
theorem fault_parse {s : String} {fault : Fault} (h : parse s = .error fault) :
    ∃ cause, fault = .color s cause := by
  unfold parse at h
  cases hread : ofHex s with
  | error cause =>
      rw [hread] at h
      exact ⟨cause, (Except.error.inj h).symm⟩
  | ok color =>
      rw [hread] at h
      cases h

/-! ### Nothing is lost -/

theorem hexValue?_lt {c : Char} {value : Nat} (h : Text.hexValue? c = some value) :
    value < 16 := by
  have h9 : ('9' : Char).toNat = 57 := rfl
  have hf : ('f' : Char).toNat = 102 := rfl
  have hF : ('F' : Char).toNat = 70 := rfl
  simp only [Text.hexValue?, Char.le_def, UInt32.le_iff_toNat_le, Char.toNat_val] at h
  split at h
  · cases h
    omega
  · split at h
    · cases h
      omega
    · split at h
      · cases h
        omega
      · cases h

/-- The value of a component fits a byte, and that of a single digit fits half of one. -/
theorem componentValue?_lt {part : List Char} {value : Nat}
    (h : componentValue? part = some value) : value < 256 ∧ (part.length = 1 → value < 16) := by
  unfold componentValue? at h
  split at h
  · have hlt := hexValue?_lt h
    exact ⟨by omega, fun _ => hlt⟩
  · next s d =>
      refine ⟨?_, fun hlength => nomatch hlength⟩
      split at h
      · have hlt := hexValue?_lt h
        omega
      · split at h
        · next high low hhigh hlow =>
            have hlthigh := hexValue?_lt hhigh
            have hltlow := hexValue?_lt hlow
            cases h
            omega
        · cases h
  · cases h

/-- The components make up the text, and all have one digit or all have two. -/
theorem components?_cases {body : List Char} {parts : List (List Char)} {factor : Nat}
    (hcut : components? body = some (parts, factor)) :
    parts.flatten = body ∧
      ((factor = 17 ∧ ∀ part ∈ parts, part.length = 1) ∨
        (factor = 1 ∧ ∀ part ∈ parts, part.length = 2)) := by
  unfold components? at hcut
  split at hcut <;> cases hcut <;> simp

/-- Every channel fits a byte. -/
theorem componentValue?_mul_lt {body part : List Char} {parts : List (List Char)}
    {factor value : Nat} (hcut : components? body = some (parts, factor)) (hpart : part ∈ parts)
    (hvalue : componentValue? part = some value) : value * factor < 256 := by
  obtain ⟨hbyte, hhalf⟩ := componentValue?_lt hvalue
  rcases (components?_cases hcut).2 with ⟨rfl, hsingle⟩ | ⟨rfl, -⟩
  · have hlt := hhalf (hsingle part hpart)
    omega
  · omega

/-! ### The main result -/

/-- **Which texts are colors.** A text is a color exactly if, without the number signs in front of
it, it is one of the two names, or three, four, six or eight hexadecimal digits, or pairs of which
some have a plus sign in place of the first digit. So the grammar of digits is right about all texts
but the signed ones. A text that is no color is kept as it was given. On the way no character and no
bit gets lost: the components that are read make up the text, and the channels fit their bytes. -/
theorem parse_classifies (s : String) :
    ((∃ color, parse s = .ok color) ↔
        IsHexBody (withoutSigns s) ∨ IsSignedBody (withoutSigns s)) ∧
      (((∃ color, parse s = .ok color) ↔ IsHexBody (withoutSigns s)) ↔
        ¬ IsSignedBody (withoutSigns s)) ∧
      (∀ fault, parse s = .error fault → ∃ cause, fault = .color s cause) ∧
      ∀ parts factor, components? (withoutSigns s) = some (parts, factor) →
        parts.flatten = withoutSigns s ∧
          ∀ part ∈ parts, ∀ value, componentValue? part = some value → value * factor < 256 := by
  refine ⟨exists_parse_iff, ?_, fun _ hfault => fault_parse hfault, ?_⟩
  · rw [exists_parse_iff]
    constructor
    · exact fun h hsigned => (h.mp (.inr hsigned)).not_isSignedBody hsigned
    · exact fun hnot => or_iff_left hnot
  · intro parts factor hcut
    exact ⟨(components?_cases hcut).1, fun part hpart value => componentValue?_mul_lt hcut hpart⟩

/-- A text of pairs with plus signs is a color, although it does not consist of digits. -/
theorem parse_signed : ¬ ((∃ color, parse "#+f+f+f" = .ok color) ↔
    IsHexBody (withoutSigns "#+f+f+f")) := by
  have hcolor : parse "#+f+f+f" = .ok (.rgb 15 15 15) := rfl
  have hbody : ¬ IsHexBody (withoutSigns "#+f+f+f") := by decide
  exact fun h => hbody (h.mp ⟨_, hcolor⟩)

end Color

end Highlight
