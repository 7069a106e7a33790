import Highlight.Html.Line
import Highlight.Proofs.Line.Runs

/-!
# Stretches tile their line

A line is rendered stretch by stretch. When the runs do not go back, every stretch ends where the
next one starts, so the stretches cover the characters of the line one after the other, each once,
and every character is covered by a stretch with the look of its position. Runs behind the end of
the line only add empty stretches.
-/

namespace Highlight.Html

/-! ### Characters with their looks -/

/-- Characters from a position on, each with the look of its position. -/
def markedBy (look : Nat → Option Metadata) (start : Nat) (chars : List Char) :
    List (Option Metadata × Char) :=
  chars.mapIdx fun offset c => (look (start + offset), c)

theorem markedBy_append (look : Nat → Option Metadata) (start : Nat) (front back : List Char) :
    markedBy look start (front ++ back) =
      markedBy look start front ++ markedBy look (start + front.length) back := by
  unfold markedBy
  rw [List.mapIdx_append]
  simp only [Nat.add_assoc, Nat.add_comm front.length]

/-- Only the looks of the positions of the characters matter. -/
theorem markedBy_congr {look other : Nat → Option Metadata} {start : Nat} {chars : List Char}
    (heq : ∀ position, start ≤ position → position < start + chars.length →
      look position = other position) :
    markedBy look start chars = markedBy other start chars := by
  refine List.mapIdx_eq_mapIdx_iff.mpr fun offset hoffset => ?_
  rw [heq (start + offset) (by omega) (by omega)]

/-- Where all positions look alike, the characters have that look. -/
theorem markedBy_const (metadata : Option Metadata) (start : Nat) (chars : List Char) :
    markedBy (fun _ => metadata) start chars = chars.map fun c => (metadata, c) := by
  refine List.mapIdx_eq_iff.mpr fun offset => ?_
  rw [List.getElem?_map]

/-- What is read off the looks is read off position by position. -/
theorem map_markedBy {α : Type} (f : Option Metadata → α) (look : Nat → Option Metadata)
    (chars : List Char) :
    ((markedBy look 0 chars).map fun (here, c) => (f here, c)) =
      chars.mapIdx fun position c => (f (look position), c) := by
  refine (List.mapIdx_eq_iff.mpr fun position => ?_).symm
  rw [List.getElem?_map, markedBy, List.getElem?_mapIdx, Option.map_map, Nat.zero_add]
  rfl

/-! ### One stretch -/

namespace Stretch

/-- The characters of a stretch, each with the look of the stretch. -/
def marked (stretch : Stretch) (line : List Char) : List (Option Metadata × Char) :=
  (stretch.chars line).map fun c => (stretch.metadata, c)

theorem chars_last (start : Nat) (metadata : Option Metadata) (line : List Char) :
    chars ⟨start, line.length, metadata⟩ line = line.drop start :=
  List.take_of_length_le (by rw [List.length_drop])

/-- A stretch and what is behind it make up the line from its start on. -/
theorem chars_append_drop {stretch : Stretch} (hle : stretch.start ≤ stretch.stop)
    (line : List Char) :
    stretch.chars line ++ line.drop stretch.stop = line.drop stretch.start := by
  have hbehind : line.drop stretch.stop =
      (line.drop stretch.start).drop (stretch.stop - stretch.start) := by
    rw [List.drop_drop, Nat.add_sub_cancel' hle]
  rw [chars, hbehind, List.take_append_drop]

/-- A stretch in front of characters that have their looks already. -/
theorem marked_append {stretch : Stretch} {line : List Char} {look : Nat → Option Metadata}
    (hle : stretch.start ≤ stretch.stop) (hstop : stretch.stop ≤ line.length)
    (hlook : ∀ position < stretch.stop, look position = stretch.metadata) :
    stretch.marked line ++ markedBy look stretch.stop (line.drop stretch.stop) =
      markedBy look stretch.start (line.drop stretch.start) := by
  have hlength : stretch.start + (stretch.chars line).length = stretch.stop := by
    rw [chars, List.length_take, List.length_drop]
    omega
  have hhere : stretch.marked line = markedBy look stretch.start (stretch.chars line) := by
    refine (markedBy_const ..).symm.trans (markedBy_congr fun position _ hposition => ?_)
    rw [hlook position (by omega)]
  rw [← chars_append_drop hle, markedBy_append, hlength, hhere]

end Stretch

/-! ### All stretches -/

/-- The stretches from `start` on cover the rest of the line, by the looks of its positions. -/
theorem flatMap_marked_stretchesFrom {line : List Char} {start : Nat} (metadata : Metadata)
    {runs : List Run} (hstart : start ≤ line.length)
    (hruns : StartsFrom start ((runMarks runs).map Mark.start)) :
    (stretchesFrom line.length start metadata runs).flatMap (·.marked line) =
      markedBy (lookAt (runMarks runs) · (some metadata)) start (line.drop start) := by
  induction runs generalizing start metadata with
  | nil =>
      rw [stretchesFrom, List.flatMap_singleton, Stretch.marked, Stretch.chars_last]
      exact (markedBy_const (some metadata) start (line.drop start)).symm
  | cons next rest ih =>
      have hnext := (startsFrom_runMarks_cons.mp hruns).1
      have hrest := (startsFrom_runMarks_cons.mp hruns).2
      -- the stretch ends where the next run starts, or with the line
      obtain ⟨stop, hstop⟩ : ∃ stop, stop = min next.start.toNat line.length := ⟨_, rfl⟩
      have hend : max start stop = stop := by omega
      -- all later runs start behind the stretch, so they do not show in it
      have hhere : ∀ position < stop,
          lookAt (runMarks (next :: rest)) position (some metadata) = some metadata := by
        intro position hposition
        refine lookAt_of_lt fun mark hmem => ?_
        have hle := (startsFrom_runMarks_cons.mpr ⟨Nat.le_refl _, hrest⟩).le
          (List.mem_map_of_mem hmem)
        omega
      -- a position behind the stretch is in the line, so the next run has started there
      have hbehind : markedBy (lookAt (runMarks (next :: rest)) · (some metadata)) stop
            (line.drop stop) =
          markedBy (lookAt (runMarks rest) · (some next.metadata)) stop (line.drop stop) := by
        refine markedBy_congr fun position hfrom hposition => ?_
        rw [List.length_drop] at hposition
        have hreached : next.start.toNat ≤ position := by omega
        rw [runMarks_cons, lookAt_cons, if_pos hreached]
      have hcovered : (stretchesFrom line.length stop next.metadata rest).flatMap
            (·.marked line) =
          markedBy (lookAt (runMarks rest) · (some next.metadata)) stop (line.drop stop) :=
        ih next.metadata (by omega) (hrest.weaken (by omega))
      rw [stretchesFrom, ← hstop, hend, List.flatMap_cons, hcovered, ← hbehind]
      have hle : start ≤ stop := by omega
      have hfits : stop ≤ line.length := by omega
      exact Stretch.marked_append hle hfits hhere

/-- **The stretches of a line cover it** character by character, by the looks of its positions, if
the runs start with the line and do not go back. -/
theorem flatMap_marked_stretches (line : List Char) {words : List UInt32}
    (hfirst : ∀ run ∈ (Run.ofWords words).head?, run.start = 0)
    (hruns : StartsFrom 0 ((runMarks (Run.ofWords words)).map Mark.start)) :
    (stretches line.length words).flatMap (·.marked line) =
      markedBy (lookAt (runMarks (Run.ofWords words)) · none) 0 line := by
  unfold stretches
  cases hwords : Run.ofWords words with
  | nil =>
      show List.flatMap _ [_] = _
      rw [List.flatMap_singleton, Stretch.marked, Stretch.chars_last, List.drop_zero]
      exact (markedBy_const none 0 line).symm
  | cons first rest =>
      rw [hwords] at hfirst hruns
      obtain ⟨hzero, hrest⟩ := startsFrom_runMarks_cons.mp hruns
      have hstart : first.start = 0 := hfirst first rfl
      have hlook : ∀ position, lookAt (runMarks (first :: rest)) position none =
          lookAt (runMarks rest) position (some first.metadata) := by
        intro position
        have hreached : first.start.toNat ≤ position := by simp [hstart]
        rw [runMarks_cons, lookAt_cons, if_pos hreached]
      have hcovered := flatMap_marked_stretchesFrom first.metadata
        (Nat.zero_le line.length) (hrest.weaken hzero)
      simpa only [hlook, List.drop_zero] using hcovered

end Highlight.Html
