import Highlight.Proofs.Html.Reading

/-!
# Every run stays inside of its line

The words of a line may come from anywhere: starts may go back, lie behind the end of the line or be
one too many. A run starts where its own word says and stops where the next one does, each brought
inside of the line in its own way, so its two ends could cross, or leave characters out between one
run and the next. They do neither.

That nothing is left out is a matter of all runs at once. Whatever the next word says, no run stops
before the place where the next run starts, so that a position is either covered by a run or behind
the start of the next one; and the last run goes on to the end of the line
(`countP_covers_stretchesFrom_pos`). What is covered is written: a reader of the rendered line finds
one run for each stretch, and in it what is seen of the characters of the stretch.
-/

namespace Highlight.Html

/-! ### Ends that may cross -/

/-- A number brought between two bounds. There is none if the bounds have crossed. -/
def clamp? (low high n : Nat) : Option Nat :=
  if low ≤ high then some (if n < low then low else if high < n then high else n) else none

/-- The characters between two positions. There are none if these have crossed or are not in the
line. -/
def slice? (line : List Char) (start stop : Nat) : Option (List Char) :=
  if start ≤ stop ∧ stop ≤ line.length then some ((line.take stop).drop start) else none

/-- Where one of several runs starts, straight from its word. -/
def startAt? (length : Nat) (words : List UInt32) (index : Nat) : Option Nat :=
  if index = 0 then some 0 else words[2 * index]?.map fun start => min start.toNat length

/-- Where a run with a given start stops, straight from the word of the next run. -/
def stopAt? (length : Nat) (words : List UInt32) (start index : Nat) : Option Nat :=
  if index + 1 < words.length / 2 then
    words[2 * (index + 1)]?.bind fun next => clamp? start length next.toNat
  else some length

/-- The stretch of one of several runs. There is none if a word is missing or bounds have
crossed. -/
def stretchAt? (length : Nat) (words : List UInt32) (index : Nat) : Option Stretch := do
  let start ← startAt? length words index
  let stop ← stopAt? length words start index
  let bits ← words[2 * index + 1]?
  return ⟨start, stop, some ⟨bits⟩⟩

/-- Bounds that have not crossed always leave a number between them. -/
theorem clamp?_eq_some {low high : Nat} (hle : low ≤ high) (n : Nat) :
    clamp? low high n = some (max low (min n high)) := by
  rw [clamp?, if_pos hle]
  split_ifs <;> congr 1 <;> omega

/-! ### Runs of words -/

theorem length_ofWords : ∀ words : List UInt32, (Run.ofWords words).length = words.length / 2
  | [] => rfl
  | [_] => by simp [Run.ofWords]
  | _ :: _ :: rest => by
      simp only [Run.ofWords, List.length_cons, length_ofWords rest]
      omega

theorem getElem?_ofWords : ∀ (words : List UInt32) (index : Nat),
    (Run.ofWords words)[index]? =
      words[2 * index + 1]?.bind fun bits => words[2 * index]?.map fun start => ⟨start, ⟨bits⟩⟩
  | [], _ => rfl
  | [_], index => by simp [Run.ofWords]
  | _ :: _ :: _, 0 => rfl
  | _ :: _ :: rest, index + 1 => getElem?_ofWords rest index

/-- Every run has both its words. -/
theorem exists_getElem?_ofWords {words : List UInt32} {index : Nat}
    (hindex : index < words.length / 2) :
    ∃ start bits, words[2 * index]? = some start ∧ words[2 * index + 1]? = some bits ∧
      (Run.ofWords words)[index]? = some ⟨start, ⟨bits⟩⟩ := by
  have hstart : words[2 * index]? = some words[2 * index] := List.getElem?_eq_getElem (by omega)
  have hbits : words[2 * index + 1]? = some words[2 * index + 1] :=
    List.getElem?_eq_getElem (by omega)
  refine ⟨_, _, hstart, hbits, ?_⟩
  rw [getElem?_ofWords, hstart, hbits]
  rfl

/-! ### Stretches one by one -/

theorem length_stretchesFrom (length start : Nat) (metadata : Metadata) (runs : List Run) :
    (stretchesFrom length start metadata runs).length = runs.length + 1 := by
  induction runs generalizing start metadata with
  | nil => rfl
  | cons next rest ih => rw [stretchesFrom, List.length_cons, ih, List.length_cons]

/-- A stretch is made of its own run and the start of the next one. -/
theorem getElem?_stretchesFrom (length front : Nat) (first : Run) (rest : List Run)
    (index : Nat) :
    (stretchesFrom length front first.metadata rest)[index]? =
      (first :: rest)[index]?.map fun run =>
        let start := if index = 0 then front else min run.start.toNat length
        let stop := rest[index]?.elim length fun next => max start (min next.start.toNat length)
        ⟨start, stop, some run.metadata⟩ := by
  induction rest generalizing front first index with
  | nil => cases index <;> simp [stretchesFrom]
  | cons next rest ih =>
      cases index with
      | zero => rfl
      | succ index =>
          rw [stretchesFrom, List.getElem?_cons_succ, ih]
          cases index <;> rfl

theorem length_stretches (length : Nat) (words : List UInt32) :
    (stretches length words).length = max 1 (words.length / 2) := by
  rw [← length_ofWords words, stretches]
  cases Run.ofWords words with
  | nil => rfl
  | cons first rest =>
      rw [length_stretchesFrom, List.length_cons]
      omega

theorem stretches_of_short {length : Nat} {words : List UInt32} (hshort : words.length < 2) :
    stretches length words = [⟨0, length, none⟩] := by
  have hnone : Run.ofWords words = [] := by
    rw [List.eq_nil_iff_length_eq_zero, length_ofWords]
    omega
  rw [stretches, hnone]

/-- The words alone give every stretch: no word is missing, and no bounds have crossed. -/
theorem stretchAt?_eq_getElem? {length index : Nat} {words : List UInt32}
    (hindex : index < words.length / 2) :
    stretchAt? length words index = (stretches length words)[index]? := by
  obtain ⟨first, rest, hruns⟩ : ∃ first rest, Run.ofWords words = first :: rest :=
    List.exists_cons_of_length_pos (by rw [length_ofWords]; omega)
  obtain ⟨word, bits, hword, hbits, hrun⟩ := exists_getElem?_ofWords hindex
  have hcount := length_ofWords words
  rw [hruns] at hrun hcount
  obtain ⟨start, hstart⟩ : ∃ start, start = if index = 0 then 0 else min word.toNat length :=
    ⟨_, rfl⟩
  have hinside : start ≤ length := by
    rw [hstart]
    split_ifs <;> omega
  have hfront : startAt? length words index = some start := by
    rw [startAt?, hword, hstart]
    split_ifs <;> rfl
  have hback : stopAt? length words start index =
      some (rest[index]?.elim length fun next => max start (min next.start.toNat length)) := by
    unfold stopAt?
    split_ifs with hnext
    · obtain ⟨next, nextBits, hnextWord, -, hnextRun⟩ := exists_getElem?_ofWords hnext
      rw [hruns, List.getElem?_cons_succ] at hnextRun
      rw [hnextWord, hnextRun, Option.bind_some, clamp?_eq_some hinside]
      rfl
    · have hlast : rest[index]? = none := by
        rw [List.getElem?_eq_none_iff]
        simp only [List.length_cons] at hcount
        omega
      rw [hlast]
      rfl
  rw [stretches, hruns, getElem?_stretchesFrom, hrun, stretchAt?, hfront, hbits]
  simp only [Option.bind_eq_bind, Option.bind_some, hback, Option.map_some, ← hstart]
  rfl

/-! ### Inside of the line -/

/-- The ends of the stretch are in order and inside of the line. -/
def Stretch.Fits (length : Nat) (stretch : Stretch) : Prop :=
  stretch.start ≤ stretch.stop ∧ stretch.stop ≤ length

/-- Whether the stretch covers a position. -/
def Stretch.covers (stretch : Stretch) (position : Nat) : Bool :=
  stretch.start ≤ position ∧ position < stretch.stop

theorem fits_stretchesFrom {length start : Nat} (hstart : start ≤ length) (metadata : Metadata)
    (runs : List Run) : ∀ stretch ∈ stretchesFrom length start metadata runs,
      stretch.Fits length := by
  induction runs generalizing start metadata with
  | nil =>
      intro stretch hstretch
      obtain rfl := List.mem_singleton.mp hstretch
      exact ⟨hstart, Nat.le_refl _⟩
  | cons next rest ih =>
      intro stretch hstretch
      rcases List.mem_cons.mp hstretch with rfl | hstretch
      · exact ⟨Nat.le_max_left .., Nat.max_le.mpr ⟨hstart, Nat.min_le_right ..⟩⟩
      · exact ih (Nat.min_le_right ..) next.metadata stretch hstretch

theorem fits_stretches {length : Nat} {words : List UInt32} :
    ∀ stretch ∈ stretches length words, stretch.Fits length := by
  unfold stretches
  cases Run.ofWords words with
  | nil =>
      intro stretch hstretch
      obtain rfl := List.mem_singleton.mp hstretch
      exact ⟨Nat.zero_le _, Nat.le_refl _⟩
  | cons first rest => exact fits_stretchesFrom (Nat.zero_le _) first.metadata rest

/-- The characters of a stretch that fits can be cut out of the line. -/
theorem slice?_of_fits {line : List Char} {stretch : Stretch} (h : stretch.Fits line.length) :
    slice? line stretch.start stretch.stop = some (stretch.chars line) := by
  rw [slice?, if_pos ⟨h.1, h.2⟩, Stretch.chars, List.drop_take]

/-! ### Covered positions -/

variable {length start position : Nat}

/-- From its first start on, every position of the line is covered. -/
theorem countP_covers_stretchesFrom_pos (hstart : start ≤ position) (hposition : position < length)
    (metadata : Metadata) (runs : List Run) :
    0 < (stretchesFrom length start metadata runs).countP (·.covers position) := by
  induction runs generalizing start metadata with
  | nil => simp [stretchesFrom, Stretch.covers, hstart, hposition]
  | cons next rest ih =>
      rw [stretchesFrom, List.countP_cons]
      -- what the stretch does not cover is behind its stop, so the next run has started there
      by_cases hhere : position < max start (min next.start.toNat length)
      · simp [Stretch.covers, hstart, hhere]
      · have hnext : min next.start.toNat length ≤ position := by omega
        have hlater := ih hnext next.metadata
        omega

/-- If starts do not go back, every position from the first start on is covered once, and no other
one is covered. -/
theorem countP_covers_stretchesFrom (hposition : position < length) (hinside : start ≤ length)
    (metadata : Metadata) {runs : List Run}
    (hruns : StartsFrom start ((runMarks runs).map Mark.start)) :
    (stretchesFrom length start metadata runs).countP (·.covers position) =
      if start ≤ position then 1 else 0 := by
  induction runs generalizing start metadata with
  | nil => simp [stretchesFrom, Stretch.covers, hposition]
  | cons next rest ih =>
      obtain ⟨hnext, hrest⟩ := startsFrom_runMarks_cons.mp hruns
      have hlater := ih (Nat.min_le_right next.start.toNat length) next.metadata
        (hrest.weaken (Nat.min_le_left ..))
      rw [stretchesFrom, List.countP_cons, hlater]
      -- the stretch stops exactly where the next one starts
      have hstop : max start (min next.start.toNat length) = min next.start.toNat length := by omega
      simp only [Stretch.covers, hstop, decide_eq_true_eq]
      split_ifs <;> omega

theorem countP_covers_stretches_pos {words : List UInt32} (hposition : position < length) :
    0 < (stretches length words).countP (·.covers position) := by
  unfold stretches
  cases Run.ofWords words with
  | nil => simp [Stretch.covers, hposition]
  | cons first rest =>
      exact countP_covers_stretchesFrom_pos (Nat.zero_le _) hposition first.metadata rest

theorem countP_covers_stretches {words : List UInt32} (hwords : NonDecreasing words)
    (hposition : position < length) :
    (stretches length words).countP (·.covers position) = 1 := by
  unfold stretches
  unfold NonDecreasing at hwords
  cases hruns : Run.ofWords words with
  | nil => simp [Stretch.covers, hposition]
  | cons first rest =>
      rw [hruns] at hwords
      -- the first run starts with the line, wherever its word says
      have hrest := (startsFrom_of_isChain hwords).weaken (Nat.zero_le _)
      rw [countP_covers_stretchesFrom hposition (Nat.zero_le _) first.metadata hrest,
        if_pos (Nat.zero_le _)]

/-! ### Written characters -/

/-- The characters of the line are those of the stretches that cover their positions. -/
theorem mem_flatMap_chars_stretches {line : List Char} {words : List UInt32} {c : Char}
    (hmem : c ∈ line) : c ∈ (stretches line.length words).flatMap (·.chars line) := by
  obtain ⟨position, hposition, hget⟩ := List.getElem_of_mem hmem
  have hcovered : 0 < (stretches line.length words).countP (·.covers position) :=
    countP_covers_stretches_pos hposition
  obtain ⟨stretch, hstretch, hcovers⟩ := List.countP_pos_iff.mp hcovered
  obtain ⟨hfrom, hto⟩ := of_decide_eq_true hcovers
  have hchars : (stretch.chars line)[position - stretch.start]? = some c := by
    rw [Stretch.chars, List.getElem?_take_of_lt (by omega), List.getElem?_drop,
      Nat.add_sub_cancel' hfrom, List.getElem?_eq_getElem hposition, hget]
  exact List.mem_flatMap.mpr ⟨stretch, hstretch, List.mem_of_getElem? hchars⟩

/-- Every character of the line is seen in some run. -/
theorem exists_shownChar_of_mem (theme : TokenTheme) (tabSize : Nat) {line : List Char}
    (words : List UInt32) {c : Char} (hmem : c ∈ line) :
    ∃ run ∈ shownRuns tabSize 0 ((stretches line.length words).map (·.run theme line)),
      ∃ before, shownChar tabSize before c <:+: run.chars := by
  apply exists_shownChar_infix
  rw [List.flatMap_map]
  exact mem_flatMap_chars_stretches hmem

/-! ### The main result -/

/-- **Whatever the words of a line are, all of it is written, and nothing else.** There is one run
for every two words, and if there are fewer, one without a style. Each can be worked out from the
words alone, without a word that is missing or bounds that have crossed, and its characters can be
cut out of the line. Every character is in at least one run, and in exactly one if the starts do not
go back. A reader of the rendered line finds these runs, one after the other, with what is seen of
their characters from the column on that the runs before have reached. So it finds every character
of the line, and if the starts do not go back, the line. -/
theorem stretches_cover (line : List Char) (words : List UInt32) :
    let all := stretches line.length words
    all.length = max 1 (words.length / 2) ∧
      (words.length < 2 → all = [⟨0, line.length, none⟩]) ∧
      (∀ index < words.length / 2, stretchAt? line.length words index = all[index]?) ∧
      (∀ stretch ∈ all, stretch.Fits line.length ∧
        slice? line stretch.start stretch.stop = some (stretch.chars line)) ∧
      (∀ position < line.length, 0 < all.countP (·.covers position)) ∧
      (NonDecreasing words → ∀ position < line.length, all.countP (·.covers position) = 1) ∧
      ∀ (theme : TokenTheme) (options : RenderOptions),
        let seen := shownRuns options.tabSize 0 (all.map (·.run theme line))
        readLine (renderLine theme options line words) = some seen ∧
          (∀ c ∈ line, ∃ run ∈ seen, ∃ before,
            shownChar options.tabSize before c <:+: run.chars) ∧
          (NonDecreasing words → seen.flatMap StyledRun.chars = shown options.tabSize line) := by
  intro all
  refine ⟨length_stretches .., stretches_of_short, fun _ => stretchAt?_eq_getElem?,
    fun stretch hstretch => ?_, fun _ => countP_covers_stretches_pos,
    fun hwords _ => countP_covers_stretches hwords, fun theme options => ?_⟩
  · have hfits := fits_stretches stretch hstretch
    exact ⟨hfits, slice?_of_fits hfits⟩
  · intro seen
    refine ⟨readLine_renderLine theme options line words,
      fun c hmem => exists_shownChar_of_mem theme options.tabSize words hmem, fun hwords => ?_⟩
    rw [flatMap_chars_shownRuns, List.flatMap_map]
    exact (congrArg _ (flatMap_chars_stretches line hwords)).trans
      (shown_eq_shownFrom options.tabSize line).symm

/-- Starts that go back and one behind the end, with a word too many, and then the same in order:
the characters behind a start that goes back are written twice, the second time from another column
on. -/
theorem stretches_cover_crossed :
    let theme : TokenTheme := ⟨fun language _ => .plain language, fun _ => none⟩
    let line := "ab\tde<".toList
    let crossed : List UInt32 := [3, 16384, 5, 0, 2, 4096, 9, 0, 7]
    let sorted : List UInt32 := [3, 16384, 5, 0, 5, 4096, 9, 0, 7]
    let html := renderLine theme {} line crossed
    ((stretches line.length crossed).length = 4 ∧
        stretchAt? line.length crossed 1 = some ⟨5, 5, some ⟨0⟩⟩ ∧
        slice? line 2 6 = some "\tde<".toList ∧
        (∀ position < 6, 0 < (stretches line.length crossed).countP (·.covers position)) ∧
        (stretches line.length crossed).countP (·.covers 4) = 2 ∧
        NonDecreasing sorted ∧ (stretches line.length sorted).countP (·.covers 4) = 1) ∧
      html = ("<span><span>ab  de</span><span></span>" ++
        "<span style=\"font-weight: bold;\">  de&lt;</span><span></span></span>").toList ∧
      readLine html = some
        [⟨"", "ab  de".toList⟩, ⟨"", []⟩, ⟨"font-weight: bold;", "  de<".toList⟩, ⟨"", []⟩] ∧
      readLine (renderLine theme {} line sorted) = some
        [⟨"", "ab  de".toList⟩, ⟨"", []⟩, ⟨"font-weight: bold;", "<".toList⟩, ⟨"", []⟩] := by
  intro theme line crossed sorted html
  obtain ⟨hlength, -, hindex, hslice, hcovered, -, hread⟩ := stretches_cover line crossed
  obtain ⟨-, -, -, -, -, honce, hreadSorted⟩ := stretches_cover line sorted
  have hsorted : NonDecreasing sorted := by decide
  have hthird : (⟨2, 6, some ⟨4096⟩⟩ : Stretch) ∈ stretches line.length crossed := by decide
  refine ⟨⟨hlength.trans (by decide), hindex 1 (by decide), (hslice _ hthird).2, hcovered,
    by decide, hsorted, honce hsorted 4 (by decide)⟩, by decide +kernel, ?_, ?_⟩
  · exact (hread theme {}).1.trans (by decide +kernel)
  · exact (hreadSorted theme {}).1.trans (by decide +kernel)

end Highlight.Html
