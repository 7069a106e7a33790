import Highlight.Proofs.Line.Corrected

/-!
# Corrected starts are the least that will do

Starts will do for the tokens of a line (`StartsFor`) if they begin at 0, never go back and put no
token but the first in front of where it was reported. The correction carries one number along, the
start of the token before, and each step takes the greater of this number and the reported start
(`toNat_correctedStart`). So the number carried is the greatest start reported behind the first
token, and it never passes the start that another list of starts that will do has at the same
place; both go by induction on the tokens with the carried number as a variable.

The correction passes between signed and unsigned numbers. It does so only with starts that were
corrected before, which are below `2 ^ 63`, and with reported starts that are not below such a
start, so the numbers stay what they are. For the same reason a line that reports its corrected
starts is left as it is.
-/

namespace Highlight

/-- The greatest start that the tokens report, or 0 if it is negative or there is no token. -/
def greatestStart (tokens : List RawToken) : Int :=
  (tokens.map fun token => token.start.toInt).foldr max 0

/-- Starts that will do for the tokens of a line. -/
structure StartsFor (tokens : List RawToken) (starts : List Nat) : Prop where
  /-- The first token starts at 0. -/
  first : starts.head? = tokens.head?.map fun _ => 0
  /-- No token starts in front of the one before it. -/
  forward : starts.IsChain (· ≤ ·)
  /-- Every other token starts where it was reported or behind that. -/
  reported : List.Forall₂ (fun token start => token.start.toInt ≤ Nat.cast start)
    tokens.tail starts.tail

/-- The conversions made for a token reported behind one that starts at `previous` keep the
numbers. The reported start is converted only if it is not below the previous one. -/
def Lossless (previous : UInt64) (reported : Int64) : Prop :=
  previous.toInt64.toInt = previous.toNat ∧
    (¬ reported < previous.toInt64 → (reported.toUInt64.toNat : Int) = reported.toInt)

/-- A token as a grammar would report it that knows its corrected start. -/
def reportedAgain (token : UInt64 × RawToken) : RawToken :=
  { token.2 with start := token.1.toInt64 }

/-! ### One start -/

theorem greatestStart_cons (token : RawToken) (rest : List RawToken) :
    greatestStart (token :: rest) = max token.start.toInt (greatestStart rest) :=
  rfl

theorem greatestStart_nil : greatestStart [] = 0 := rfl

theorem greatestStart_nonneg (tokens : List RawToken) : 0 ≤ greatestStart tokens := by
  induction tokens with
  | nil => exact Int.le_refl 0
  | cons token rest ih => exact Int.le_trans ih (Int.le_max_right ..)

theorem lossless {previous : UInt64} (hfits : previous.toNat < 2 ^ 63) (reported : Int64) :
    Lossless previous reported := by
  have hprevious := toInt_toInt64 hfits
  refine ⟨hprevious, fun hforward => ?_⟩
  rw [Int64.lt_iff_toInt_lt, hprevious] at hforward
  have hnonneg : 0 ≤ reported.toInt := by omega
  rw [toNat_toUInt64 hnonneg, Int.toNat_of_nonneg hnonneg]

/-- A start that does not go back is left as it is. -/
theorem correctedStart_toInt64 {previous start : UInt64} (hle : previous.toNat ≤ start.toNat)
    (hfits : start.toNat < 2 ^ 63) : correctedStart previous start.toInt64 = start := by
  apply UInt64.toNat_inj.mp
  rw [toNat_correctedStart (by omega), toInt_toInt64 hfits]
  omega

/-! ### All starts of a line -/

section

variable {previous : UInt64}

theorem map_snd_correctedFrom (previous : UInt64) (tokens : List RawToken) :
    (correctedFrom previous tokens).map Prod.snd = tokens := by
  induction tokens generalizing previous with
  | nil => rfl
  | cons token rest ih => rw [correctedFrom, List.map_cons, ih]

theorem fits_correctedFrom (hfits : previous.toNat < 2 ^ 63) (tokens : List RawToken) :
    ∀ token ∈ correctedFrom previous tokens, token.1.toNat < 2 ^ 63 := by
  induction tokens generalizing previous with
  | nil => simp [correctedFrom]
  | cons first rest ih =>
      intro token hmem
      rcases List.mem_cons.mp hmem with rfl | hmem
      · exact correctedStart_fits hfits first.start
      · exact ih (correctedStart_fits hfits first.start) token hmem

/-- The number carried along is the greatest one so far. -/
theorem getElem?_correctedFrom (hfits : previous.toNat < 2 ^ 63) (tokens : List RawToken)
    (i : Nat) :
    (correctedFrom previous tokens)[i]?.map (fun token => (token.1.toNat : Int)) =
      tokens[i]?.map fun _ => max (previous.toNat : Int) (greatestStart (tokens.take (i + 1))) := by
  induction tokens generalizing previous i with
  | nil => simp [correctedFrom]
  | cons token rest ih =>
      have hstart := toNat_correctedStart hfits token.start
      cases i with
      | zero =>
          simp only [correctedFrom, List.getElem?_cons_zero, Option.map_some, Nat.zero_add,
            List.take_succ_cons, List.take_zero, greatestStart_cons, greatestStart_nil, hstart]
          congr 1
          omega
      | succ i =>
          have hrest := ih (correctedStart_fits hfits token.start) i
          simp only [correctedFrom, List.getElem?_cons_succ, List.take_succ_cons,
            greatestStart_cons]
          rw [hrest, hstart]
          cases rest[i]? with
          | none => rfl
          | some later =>
              simp only [Option.map_some]
              congr 1
              omega

theorem reported_le_correctedFrom (hfits : previous.toNat < 2 ^ 63) (tokens : List RawToken) :
    List.Forall₂ (fun token start => token.start.toInt ≤ Nat.cast start) tokens
      (correctedStarts (correctedFrom previous tokens)) := by
  induction tokens generalizing previous with
  | nil => exact .nil
  | cons token rest ih =>
      refine .cons ?_ (ih (correctedStart_fits hfits token.start))
      show token.start.toInt ≤ ((correctedStart previous token.start).toNat : Int)
      rw [toNat_correctedStart hfits]
      omega

/-- Starts that go on from the carried number or behind it are never passed. -/
theorem correctedFrom_le (hfits : previous.toNat < 2 ^ 63) {bound : Nat}
    (hbound : previous.toNat ≤ bound) {tokens : List RawToken} {starts : List Nat}
    (hstarts : StartsFrom bound starts)
    (hreported : List.Forall₂ (fun token start => token.start.toInt ≤ Nat.cast start)
      tokens starts) :
    List.Forall₂ (· ≤ ·) (correctedStarts (correctedFrom previous tokens)) starts := by
  induction hreported generalizing previous bound with
  | nil => exact .nil
  | @cons token start tokens starts htoken _ ih =>
      obtain ⟨hstart, hrest⟩ := startsFrom_cons.mp hstarts
      have hnext : (correctedStart previous token.start).toNat ≤ start := by
        rw [toNat_correctedStart hfits]
        omega
      exact .cons hnext (ih (correctedStart_fits hfits token.start) hnext hrest)

/-- Starts that do not go back are left as they are. -/
theorem correctedFrom_reportedAgain {tokens : List (UInt64 × RawToken)}
    (hstarts : StartsFrom previous.toNat (correctedStarts tokens))
    (hfits : ∀ token ∈ tokens, token.1.toNat < 2 ^ 63) :
    correctedFrom previous (tokens.map reportedAgain) =
      tokens.map fun token => (token.1, reportedAgain token) := by
  induction tokens generalizing previous with
  | nil => rfl
  | cons token rest ih =>
      obtain ⟨hstart, hrest⟩ := startsFrom_correctedStarts_cons.mp hstarts
      obtain ⟨htoken, hlater⟩ := List.forall_mem_cons.mp hfits
      have hsame : correctedStart previous (reportedAgain token).start = token.1 :=
        correctedStart_toInt64 hstart htoken
      rw [List.map_cons, correctedFrom, hsame, ih hrest hlater, List.map_cons]

/-- Every token behind another one is corrected without loss. -/
theorem lossless_correctedFrom (hfits : previous.toNat < 2 ^ 63) (tokens : List RawToken) :
    ∀ step ∈ (previous :: (correctedFrom previous tokens).map Prod.fst).zip tokens,
      Lossless step.1 step.2.start := by
  induction tokens generalizing previous with
  | nil => simp
  | cons token rest ih =>
      intro step hmem
      rcases List.mem_cons.mp hmem with rfl | hmem
      · exact lossless hfits token.start
      · exact ih (correctedStart_fits hfits token.start) step hmem

end

theorem map_snd_corrected (tokens : List RawToken) :
    (corrected tokens).map Prod.snd = tokens := by
  cases tokens with
  | nil => rfl
  | cons first rest => rw [corrected, List.map_cons, map_snd_correctedFrom]

theorem fits_corrected (tokens : List RawToken) :
    ∀ token ∈ corrected tokens, token.1.toNat < 2 ^ 63 := by
  cases tokens with
  | nil => simp [corrected]
  | cons first rest => exact List.forall_mem_cons.mpr ⟨zero_fits, fits_correctedFrom zero_fits rest⟩

/-- The start of a token is the greatest one reported from the second token up to it. -/
theorem getElem?_correctedStarts (tokens : List RawToken) (i : Nat) :
    (correctedStarts (corrected tokens))[i]?.map Nat.cast =
      tokens[i]?.map fun _ => greatestStart (tokens.tail.take i) := by
  cases tokens with
  | nil => simp [corrected, correctedStarts]
  | cons first rest =>
      cases i with
      | zero => rfl
      | succ i =>
          have hrest := getElem?_correctedFrom zero_fits rest i
          have hnonneg := greatestStart_nonneg (rest.take (i + 1))
          rw [correctedStarts, corrected, List.getElem?_map, Option.map_map, List.tail_cons,
            List.getElem?_cons_succ, List.getElem?_cons_succ]
          refine hrest.trans ?_
          show rest[i]?.map (fun _ => max 0 (greatestStart (rest.take (i + 1)))) = _
          rw [Int.max_eq_right hnonneg]

/-- The corrected starts will do. -/
theorem startsFor_corrected (tokens : List RawToken) :
    StartsFor tokens (correctedStarts (corrected tokens)) where
  first := by cases tokens <;> rfl
  forward := (startsFrom_corrected tokens).tail
  reported := by
    cases tokens with
    | nil => exact .nil
    | cons first rest => exact reported_le_correctedFrom zero_fits rest

/-- No other starts that will do are in front of them. -/
theorem corrected_le {tokens : List RawToken} {starts : List Nat}
    (hstarts : StartsFor tokens starts) :
    List.Forall₂ (· ≤ ·) (correctedStarts (corrected tokens)) starts := by
  obtain ⟨hfirst, hforward, hreported⟩ := hstarts
  cases tokens with
  | nil =>
      obtain rfl : starts = [] := List.head?_eq_none_iff.mp hfirst
      exact .nil
  | cons first rest =>
      cases starts with
      | nil => cases hfirst
      | cons start starts =>
          obtain rfl : start = 0 := Option.some.inj hfirst
          exact .cons (Nat.le_refl 0)
            (correctedFrom_le zero_fits (Nat.le_refl 0) hforward hreported)

/-- A line that reports its corrected starts is left as it is. -/
theorem corrected_reportedAgain (tokens : List RawToken) :
    corrected ((corrected tokens).map reportedAgain) =
      (corrected tokens).map fun token => (token.1, reportedAgain token) := by
  have hstarts := startsFrom_corrected tokens
  have hfits := fits_corrected tokens
  cases tokens with
  | nil => rfl
  | cons first rest =>
      have hrest := (startsFrom_correctedStarts_cons.mp hstarts).2
      have hsame := correctedFrom_reportedAgain hrest (List.forall_mem_cons.mp hfits).2
      rw [corrected, List.map_cons, corrected, hsame, List.map_cons]

/-- Every token but the first is corrected without loss. -/
theorem lossless_corrected (tokens : List RawToken) :
    ∀ step ∈ ((corrected tokens).map Prod.fst).zip tokens.tail, Lossless step.1 step.2.start := by
  cases tokens with
  | nil => simp [corrected]
  | cons first rest => exact lossless_correctedFrom zero_fits rest

/-! ### The main result -/

/-- **Corrected starts are the least that will do.** Whatever starts a grammar reports for a line,
its tokens are kept in order. The first one starts at 0 and every other one at the greatest start
reported from the second token up to it, or at 0 if that is negative. These are the least starts
that begin at 0, never go back and put no token but the first in front of its reported start. All
conversions keep the numbers, and correcting the corrected starts changes nothing. -/
theorem corrected_least (tokens : List RawToken) :
    let starts := correctedStarts (corrected tokens)
    (corrected tokens).map Prod.snd = tokens ∧
      (∀ i, starts[i]?.map Nat.cast =
        tokens[i]?.map fun _ => greatestStart (tokens.tail.take i)) ∧
      StartsFor tokens starts ∧
      (∀ others, StartsFor tokens others → List.Forall₂ (· ≤ ·) starts others) ∧
      (∀ step ∈ ((corrected tokens).map Prod.fst).zip tokens.tail,
        Lossless step.1 step.2.start) ∧
      corrected ((corrected tokens).map reportedAgain) =
        (corrected tokens).map fun token => (token.1, reportedAgain token) := by
  intro starts
  exact ⟨map_snd_corrected tokens, getElem?_correctedStarts tokens, startsFor_corrected tokens,
    fun others => corrected_le, lossless_corrected tokens, corrected_reportedAgain tokens⟩

/-- The first token is reported late, others too early or before the line, and one at the greatest
signed number. Starts that will do may leave a gap, but none is in front of a corrected one. -/
theorem corrected_least_huge :
    let tokens : List RawToken :=
      [⟨7, "a"⟩, ⟨-3, "b"⟩, ⟨12, "c"⟩, ⟨4, "d"⟩, ⟨9223372036854775807, "e"⟩, ⟨-100, "f"⟩]
    let starts := [0, 0, 12, 12, 9223372036854775807, 9223372036854775807]
    let others := [0, 5, 12, 13, 9223372036854775807, 9223372036854775808]
    StartsFor tokens others ∧ correctedStarts (corrected tokens) = starts ∧
      List.Forall₂ (· ≤ ·) starts others := by
  intro tokens starts others
  have hothers : StartsFor tokens others := by
    refine ⟨rfl, by decide, ?_⟩
    simp [tokens, others]
  obtain ⟨-, -, -, hleast, -⟩ := corrected_least tokens
  have hstarts : correctedStarts (corrected tokens) = starts := by decide
  exact ⟨hothers, hstarts, hstarts ▸ hleast others hothers⟩

end Highlight
