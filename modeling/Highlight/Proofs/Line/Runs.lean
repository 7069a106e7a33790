import Highlight.Proofs.Line.Corrected

/-!
# The look of a position

Tokens and runs both tell how every position of a line looks: like the last one that starts no
later. Dropping the tokens that continue a run does not change the look of any position, because a
dropped token has the look of the run it continues; this needs the starts not to go back, or else
the token could begin before that run. The cut of starts to 32 bits is invisible below the greatest
number of 32 bits.
-/

namespace Highlight

/-! ### Words and back -/

theorem Run.ofWords_toWords (runs : List Run) : Run.ofWords (Run.toWords runs) = runs := by
  induction runs with
  | nil => rfl
  | cons run rest ih =>
      show run :: Run.ofWords (Run.toWords rest) = run :: rest
      rw [ih]

theorem toNat_saturatingAdd (start delta : UInt64) :
    (saturatingAdd start delta).toNat = min (start.toNat + delta.toNat) (2 ^ 64 - 1) := by
  have hsum : (start + delta).toNat = (start.toNat + delta.toNat) % 2 ^ 64 :=
    UInt64.toNat_add start delta
  have hstart := start.toNat_lt
  have hdelta := delta.toNat_lt
  simp only [saturatingAdd]
  by_cases hwrapped : start + delta < start
  · -- the sum went past the greatest number exactly if it is below the start
    rw [if_pos hwrapped]
    have hbelow : (start + delta).toNat < start.toNat := UInt64.lt_iff_toNat_lt.mp hwrapped
    show 2 ^ 64 - 1 = _
    omega
  · rw [if_neg hwrapped]
    have hreached : ¬(start + delta).toNat < start.toNat :=
      fun hbelow => hwrapped (UInt64.lt_iff_toNat_lt.mpr hbelow)
    omega

@[simp]
theorem saturatingAdd_zero (start : UInt64) : saturatingAdd start 0 = start := by
  rw [saturatingAdd, UInt64.add_zero]
  exact if_neg (UInt64.lt_irrefl start)

theorem toNat_encodedStart (start : UInt64) :
    (encodedStart start).toNat = min start.toNat (2 ^ 32 - 1) := by
  rw [encodedStart]
  split
  · next hfits =>
      rw [UInt64.toNat_toUInt32, Nat.mod_eq_of_lt hfits]
      exact (Nat.min_eq_left (Nat.le_sub_one_of_lt hfits)).symm
  · next hcut =>
      have hreached : 2 ^ 32 ≤ start.toNat := Nat.le_of_not_lt hcut
      show 2 ^ 32 - 1 = _
      omega

/-- **Starts are cut twice.** A moved start stays within 64 bits and is then cut to 32 bits: nothing
is lost that the second cut would have kept. -/
theorem toNat_encodedStart_saturatingAdd (start delta : UInt64) :
    (encodedStart (saturatingAdd start delta)).toNat =
      min (start.toNat + delta.toNat) (2 ^ 32 - 1) := by
  rw [toNat_encodedStart, toNat_saturatingAdd]
  omega

/-- A sum that wraps around would be a small start. -/
example : (-1 : UInt64) + 3 = 2 ∧ encodedStart (saturatingAdd (-1) 3) = 4294967295 := by decide

/-- Among positions of 32 bits an encoded start is where the start itself is. -/
theorem encodedStart_le_iff {start : UInt64} {position : Nat} (hposition : position < 2 ^ 32 - 1) :
    (encodedStart start).toNat ≤ position ↔ start.toNat ≤ position := by
  rw [toNat_encodedStart]
  omega

/-! ### Marks -/

/-- A position from which on a line has some look. -/
structure Mark where
  start : Nat
  metadata : Metadata

/-- The marks that tokens set, with the words of a theme. -/
def tokenMarks (word : String → Metadata) (tokens : List (UInt64 × RawToken)) : List Mark :=
  tokens.map fun token => ⟨token.1.toNat, word token.2.scopes⟩

/-- The marks that runs set. -/
def runMarks (runs : List Run) : List Mark :=
  runs.map fun run => ⟨run.start.toNat, run.metadata⟩

theorem runMarks_cons (run : Run) (rest : List Run) :
    runMarks (run :: rest) = ⟨run.start.toNat, run.metadata⟩ :: runMarks rest :=
  rfl

theorem tokenMarks_cons (word : String → Metadata) (start : UInt64) (token : RawToken)
    (rest : List (UInt64 × RawToken)) :
    tokenMarks word ((start, token) :: rest) =
      ⟨start.toNat, word token.scopes⟩ :: tokenMarks word rest :=
  rfl

theorem startsFrom_runMarks_cons {bound : Nat} {run : Run} {rest : List Run} :
    StartsFrom bound ((runMarks (run :: rest)).map Mark.start) ↔
      bound ≤ run.start.toNat ∧ StartsFrom run.start.toNat ((runMarks rest).map Mark.start) :=
  startsFrom_cons

/-- The look of a position: that of the last mark up to it, or `before` in front of all marks. -/
def lookAt (marks : List Mark) (position : Nat) (before : Option Metadata) : Option Metadata :=
  ((marks.findRev? fun mark => mark.start ≤ position).map Mark.metadata).or before

/-- A mark up to the position changes what is in front of the other marks. -/
theorem lookAt_cons (mark : Mark) (rest : List Mark) (position : Nat)
    (before : Option Metadata) :
    lookAt (mark :: rest) position before =
      lookAt rest position (if mark.start ≤ position then some mark.metadata else before) := by
  unfold lookAt
  rw [List.findRev?]
  cases rest.findRev? fun mark => mark.start ≤ position with
  | some found => rfl
  | none => by_cases hstart : mark.start ≤ position <;> simp [hstart]

/-- In front of all marks their look does not matter. -/
theorem lookAt_of_lt {marks : List Mark} {position : Nat} {before : Option Metadata}
    (hlater : ∀ mark ∈ marks, position < mark.start) : lookAt marks position before = before := by
  induction marks with
  | nil => rfl
  | cons mark rest ih =>
      have hstart := hlater mark List.mem_cons_self
      rw [lookAt_cons, if_neg (by omega)]
      exact ih fun later hmem => hlater later (List.mem_cons_of_mem mark hmem)

/-! ### From tokens to runs -/

/-- The marks of the runs do not go back either. -/
theorem startsFrom_runsFrom (word : String → Metadata) (delta : UInt64)
    (previous : Option Metadata) {bound : Nat} {tokens : List (UInt64 × RawToken)}
    (hstarts : StartsFrom bound (correctedStarts tokens)) :
    StartsFrom (min (bound + delta.toNat) (2 ^ 32 - 1))
      ((runMarks (runsFrom word delta previous tokens)).map Mark.start) := by
  induction tokens generalizing previous bound with
  | nil => exact .nil
  | cons token rest ih =>
      obtain ⟨start, token⟩ := token
      obtain ⟨hbound, hrest⟩ := startsFrom_correctedStarts_cons.mp hstarts
      have hmoved := toNat_encodedStart_saturatingAdd start delta
      have hencoded : min (bound + delta.toNat) (2 ^ 32 - 1) ≤
          (encodedStart (saturatingAdd start delta)).toNat := by
        omega
      simp only [runsFrom]
      by_cases hsame : previous = some (word token.scopes)
      · rw [if_pos hsame]
        exact (ih previous hrest).weaken (hencoded.trans_eq hmoved)
      · rw [if_neg hsame]
        exact startsFrom_runMarks_cons.mpr ⟨hencoded, hmoved ▸ ih _ hrest⟩

/-- Runs give every position the look that tokens give it. The run that is under way when the tokens
begin has the look `previous`, so that is the look in front of the tokens wherever they can be
preceded by it: from `bound` on. -/
theorem lookAt_runsFrom {word : String → Metadata} {previous before : Option Metadata}
    {bound position : Nat} {tokens : List (UInt64 × RawToken)}
    (hposition : position < 2 ^ 32 - 1) (hstarts : StartsFrom bound (correctedStarts tokens))
    (hbefore : bound ≤ position → before = previous) :
    lookAt (runMarks (runsFrom word 0 previous tokens)) position before =
      lookAt (tokenMarks word tokens) position before := by
  induction tokens generalizing previous before bound with
  | nil => rfl
  | cons token rest ih =>
      obtain ⟨start, token⟩ := token
      obtain ⟨hbound, hrest⟩ := startsFrom_correctedStarts_cons.mp hstarts
      have hencoded : (encodedStart start).toNat ≤ position ↔ start.toNat ≤ position :=
        encodedStart_le_iff hposition
      rw [tokenMarks_cons, lookAt_cons]
      simp only [runsFrom]
      by_cases hsame : previous = some (word token.scopes)
      · -- the token continues the run, which reaches every position that the token reaches
        have hkept : (if start.toNat ≤ position then some (word token.scopes) else before) =
            before := by
          by_cases hreached : start.toNat ≤ position
          · rw [if_pos hreached, hbefore (by omega), hsame]
          · rw [if_neg hreached]
        rw [if_pos hsame, hkept]
        exact ih hrest fun hreached => hbefore (by omega)
      · -- the token starts a run of its own, which is then the one under way
        rw [if_neg hsame, saturatingAdd_zero, runMarks_cons, lookAt_cons]
        simp only [hencoded]
        exact ih hrest fun hreached => if_pos hreached

/-- **The runs of a line give every position the look that its tokens give it.** -/
theorem lookAt_encodedRuns (word : String → Metadata) (tokens : List RawToken) {position : Nat}
    (hposition : position < 2 ^ 32 - 1) :
    lookAt (runMarks (encodedRuns word 0 tokens)) position none =
      lookAt (tokenMarks word (corrected tokens)) position none :=
  lookAt_runsFrom hposition (startsFrom_corrected tokens) fun _ => rfl

/-- The runs of a line start with it. -/
theorem start_head?_encodedRuns (word : String → Metadata) (tokens : List RawToken) :
    ∀ run ∈ (encodedRuns word 0 tokens).head?, run.start = 0 := by
  cases tokens with
  | nil => exact fun run hrun => nomatch hrun
  | cons token rest =>
      intro run hrun
      obtain rfl : (⟨encodedStart 0, word token.scopes⟩ : Run) = run := Option.some.inj hrun
      rfl

theorem startsFrom_encodedRuns (word : String → Metadata) (tokens : List RawToken) :
    StartsFrom 0 ((runMarks (encodedRuns word 0 tokens)).map Mark.start) :=
  (startsFrom_runsFrom word 0 none (startsFrom_corrected tokens)).weaken (Nat.zero_le _)

end Highlight
