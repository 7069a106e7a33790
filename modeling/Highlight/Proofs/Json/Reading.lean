import Highlight.Json.Record
import Highlight.Json.Value
import Mathlib.Data.List.Forall2

/-!
# Reading what was written

A reader reads a text as a value if it takes just this text from the front, whatever follows
(`Reads`). Each lemma below takes one part of a document from the front of any rest, so they are put
together in the order in which the document was written: texts with their escapes, lists of what is
read itself, and records entry by entry.

The loops over characters, items and entries are bounded by the length of what is left. Every
character, item and entry is written with one character at least, so the bound is never reached.
-/

namespace Highlight.Json.Reader

variable {α σ : Type}

/-- The reader takes just this text from the front, whatever follows, and reads it as the value. -/
def Reads (reader : Reader α) (written : List Char) (value : α) : Prop :=
  ∀ rest, StateT.run reader (written ++ rest) = .ok (value, rest)

theorem Reads.map {β : Type} {reader : Reader α} {written : List Char} {value : α}
    (h : Reads reader written value) (f : α → β) : Reads (f <$> reader) written (f value) := by
  intro rest
  rw [StateT.run_map, h]
  rfl

theorem Reads.run {reader : Reader α} {written : List Char} {value : α}
    (h : Reads reader written value) : reader.run (String.ofList written) = .ok value := by
  have hwhole := h []
  rw [List.append_nil] at hwhole
  rw [Reader.run, StateT.run'_eq, String.toList_ofList, StateT.run_bind, hwhole]
  rfl

variable {c : Char}

/-- What is found behind the blanks stays in front. -/
theorem run_peek_eq (cs : List Char) :
    StateT.run peek cs = (cs.dropWhile isJsonBlank).head?.elim (.error .truncated)
      fun c => .ok (c, cs.dropWhile isJsonBlank) := by
  have hpeek : StateT.run peek? cs =
      .ok ((cs.dropWhile isJsonBlank).head?, cs.dropWhile isJsonBlank) := rfl
  rw [peek, StateT.run_bind, hpeek]
  cases cs.dropWhile isJsonBlank <;> rfl

theorem run_peek (hc : isJsonBlank c = false) (rest : List Char) :
    StateT.run peek (c :: rest) = .ok (c, c :: rest) := by
  rw [run_peek_eq, List.dropWhile_cons_of_neg (by simp [hc])]
  rfl

theorem run_refuseType (expected : String) (cs : List Char) (result : α × List Char) :
    StateT.run (refuseType expected) cs ≠ .ok result := by
  rw [refuseType, StateT.run_bind]
  cases StateT.run peek cs with
  | error fault => exact nofun
  | ok peeked =>
      change StateT.run (found peeked.1 >>= fun actual => refuse (.invalidType actual expected))
        peeked.2 ≠ _
      rw [StateT.run_bind]
      cases StateT.run (found peeked.1) peeked.2 with
      | error fault => exact nofun
      | ok actual => exact nofun

/-- A reader that refuses all values but those that open with one character reads such a value. -/
theorem run_opened {opening : Char} {reader : Reader α} {expected : String} {cs : List Char}
    {result : α × List Char}
    (h : StateT.run (do if (← peek) = opening then reader else refuseType expected) cs =
      .ok result) :
    ∃ rest, StateT.run peek cs = .ok (opening, opening :: rest) ∧
      StateT.run reader (opening :: rest) = .ok result := by
  rw [StateT.run_bind] at h
  rw [run_peek_eq] at h ⊢
  cases hrest : cs.dropWhile isJsonBlank with
  | nil =>
      rw [hrest] at h
      cases h
  | cons c rest =>
      rw [hrest] at h
      change StateT.run (if c = opening then _ else _) (c :: rest) = _ at h
      by_cases hopening : c = opening
      · subst hopening
        rw [if_pos rfl] at h
        exact ⟨rest, rfl, h⟩
      · rw [if_neg hopening] at h
        exact absurd h (run_refuseType expected _ result)

theorem run_take (hc : isJsonBlank c = false) (rest : List Char) :
    StateT.run (take c) (c :: rest) = .ok ((), rest) := by
  rw [take, StateT.run_bind, run_peek hc]
  change StateT.run (if c = c then _ else _) _ = _
  rw [if_pos rfl]
  rfl

/-! ### Texts -/

theorem run_takeChars_plain (hquote : c ≠ '"') (hbackslash : c ≠ '\\') (hcontrol : 0x20 ≤ c.toNat)
    (paired : Bool) (fuel : Nat) (taken rest : List Char) :
    StateT.run (takeChars paired (fuel + 1) taken) (c :: rest) =
      StateT.run (takeChars paired fuel (c :: taken)) rest := by
  change StateT.run (if c = '"' then _ else if c = '\\' then _ else if c.toNat < 0x20 then _ else _)
    rest = _
  rw [if_neg hquote, if_neg hbackslash, if_neg (Nat.not_lt.mpr hcontrol)]

theorem run_takeChars_escape {paired : Bool} {escape : List Char}
    (hescape : Reads (takeEscape paired) escape c) (fuel : Nat) (taken rest : List Char) :
    StateT.run (takeChars paired (fuel + 1) taken) ('\\' :: escape ++ rest) =
      StateT.run (takeChars paired fuel (c :: taken)) rest := by
  change StateT.run (takeEscape paired >>= fun decoded => takeChars paired fuel (decoded :: taken))
    (escape ++ rest) = _
  rw [StateT.run_bind, hescape]
  rfl

/-- The code point of a control character, filled up with zeros. -/
def controlDigits (n : Nat) : List Char :=
  List.replicate (4 - (Text.hexDigits n).length) '0' ++ Text.hexDigits n

theorem mapM_hexValue?_controlDigits :
    ∀ n < 0x20, (controlDigits n).length = 4 ∧
      (controlDigits n).mapM Text.hexValue? = some [0, 0, n / 16, n % 16] := by
  decide

theorem reads_takeUnit_control {n : Nat} (hn : n < 0x20) : Reads takeUnit (controlDigits n) n := by
  intro rest
  obtain ⟨hlength, hvalues⟩ := mapM_hexValue?_controlDigits n hn
  have hvalue : ((0 * 16 + 0) * 16 + n / 16) * 16 + n % 16 = n := by omega
  rw [takeUnit]
  simp only [StateT.run_bind, StateT.run_get, pure_bind, List.take_left' hlength,
    List.drop_left' hlength, hvalues, hvalue]
  rfl

theorem run_takeEscape_unit (digits : List Char) :
    StateT.run (takeEscape true) ('u' :: digits) =
      StateT.run (do
        let unit ← takeUnit
        if 0xD800 ≤ unit ∧ unit ≤ 0xDBFF then takeLowUnit unit
        else if 0xDC00 ≤ unit ∧ unit ≤ 0xDFFF then throw .malformed
        else return Char.ofNat unit) digits := by
  simp [takeEscape, advance]

theorem reads_takeEscape_control (hc : c.toNat < 0x20) :
    Reads (takeEscape true) ('u' :: controlDigits c.toNat) c := by
  intro rest
  rw [List.cons_append, run_takeEscape_unit, StateT.run_bind, reads_takeUnit_control hc]
  -- the unit is no half of a pair
  change StateT.run (if 0xD800 ≤ c.toNat ∧ c.toNat ≤ 0xDBFF then _
    else if 0xDC00 ≤ c.toNat ∧ c.toNat ≤ 0xDFFF then _ else _) rest = _
  rw [if_neg (by omega), if_neg (by omega), Char.ofNat_toNat]
  rfl

/-- A character is written as an escape that stands for it, or as itself. -/
theorem escapedChar_cases (c : Char) :
    (∃ escape, escapedChar c = '\\' :: escape ∧ Reads (takeEscape true) escape c) ∨
      (escapedChar c = [c] ∧ c ≠ '"' ∧ c ≠ '\\' ∧ 0x20 ≤ c.toNat) := by
  by_cases hletter : c ∈ ['"', '\\', '\n', '\r', '\t', '\x08', '\x0c']
  · simp only [List.mem_cons, List.not_mem_nil, or_false] at hletter
    left
    rcases hletter with rfl | rfl | rfl | rfl | rfl | rfl | rfl <;>
      exact ⟨_, rfl, fun _ => rfl⟩
  · simp only [List.mem_cons, List.not_mem_nil, or_false, not_or] at hletter
    obtain ⟨hquote, hbackslash, hn, hr, ht, hb, hf⟩ := hletter
    rw [escapedChar, if_neg hquote, if_neg hbackslash, if_neg hn, if_neg hr, if_neg ht, if_neg hb,
      if_neg hf]
    by_cases hcontrol : c.toNat < 0x20
    · rw [if_pos hcontrol]
      exact .inl ⟨'u' :: controlDigits c.toNat, rfl, reads_takeEscape_control hcontrol⟩
    · rw [if_neg hcontrol]
      exact .inr ⟨rfl, hquote, hbackslash, Nat.not_lt.mp hcontrol⟩

/-- Written characters are read back up to the closing quote. -/
theorem run_takeChars_escaped (cs : List Char) {fuel : Nat} (hfuel : cs.length ≤ fuel)
    (taken rest : List Char) :
    StateT.run (takeChars true (fuel + 1) taken) (cs.flatMap escapedChar ++ '"' :: rest) =
      .ok (taken.reverse ++ cs, rest) := by
  induction cs generalizing fuel taken with
  | nil =>
      rw [List.append_nil]
      rfl
  | cons c cs ih =>
      obtain ⟨fuel, rfl⟩ := Nat.exists_eq_add_of_le' (Nat.one_le_of_lt hfuel)
      have hnext := ih (Nat.le_of_succ_le_succ hfuel) (c :: taken)
      rw [List.reverse_cons, List.append_assoc, List.singleton_append] at hnext
      rw [List.flatMap_cons, List.append_assoc, ← hnext]
      rcases escapedChar_cases c with ⟨escape, hwritten, hescape⟩ | ⟨hwritten, hq, hb, hc⟩
      · rw [hwritten, run_takeChars_escape hescape]
      · rw [hwritten, List.singleton_append, run_takeChars_plain hq hb hc]

theorem length_le_flatMap_escapedChar (cs : List Char) :
    cs.length ≤ (cs.flatMap escapedChar).length := by
  induction cs with
  | nil => exact Nat.le_refl 0
  | cons c cs ih =>
      have hone : 1 ≤ (escapedChar c).length := by
        rcases escapedChar_cases c with ⟨escape, hwritten, -⟩ | ⟨hwritten, -⟩ <;> simp [hwritten]
      rw [List.flatMap_cons, List.length_append, List.length_cons]
      omega

theorem reads_takeText (s : String) :
    Reads (takeText true) (s.toList.flatMap escapedChar ++ ['"']) s := by
  intro rest
  have hroom : s.toList.length ≤ (s.toList.flatMap escapedChar ++ '"' :: rest).length := by
    rw [List.length_append]
    exact Nat.le_add_right_of_le (length_le_flatMap_escapedChar s.toList)
  rw [List.append_assoc, List.singleton_append, takeText, StateT.run_bind]
  change StateT.run (takeChars true (_ + 1) [] >>= fun cs => pure (String.ofList cs)) _ = _
  rw [StateT.run_bind, run_takeChars_escaped _ hroom]
  simp

theorem toList_quotedText (s : String) :
    (quotedText s).toList = '"' :: (s.toList.flatMap escapedChar ++ ['"']) := by
  simp [quotedText]

/-- **A quoted text is read back.** -/
theorem reads_text (s : String) : Reads text (quotedText s).toList s := by
  intro rest
  rw [toList_quotedText, List.cons_append, text, StateT.run_bind, run_peek rfl]
  exact reads_takeText s rest

/-- A text that may be missing is read back where it is not. -/
theorem reads_optional_text (s : String) :
    Reads (optional text) (quotedText s).toList (some s) := by
  intro rest
  have htext := reads_text s rest
  rw [toList_quotedText, List.cons_append] at htext ⊢
  change StateT.run (some <$> text) ('"' :: _) = _
  rw [StateT.run_map, htext]
  rfl

/-! ### Lists -/

/-- The text begins with a character that is no blank and does not close a list. -/
def Begins (written : List Char) : Prop :=
  ∃ c rest, written = c :: rest ∧ isJsonBlank c = false ∧ c ≠ ']'

/-- The reader reads each text as the value that stands in its place. -/
abbrev ReadsEach (item : Reader α) (written : List (List Char)) (values : List α) : Prop :=
  List.Forall₂ (fun written value => Begins written ∧ Reads item written value) written values

/-- What stands behind the first item of a list, or behind the first entry of a record. -/
def followers (written : List (List Char)) : List Char := written.flatMap (',' :: ·)

theorem intercalate_comma_cons (first : List Char) (others : List (List Char)) :
    [','].intercalate (first :: others) = first ++ followers others := by
  induction others generalizing first with
  | nil => simp [followers]
  | cons next others ih => simp [List.intercalate_cons_cons, ih, followers]

theorem length_le_followers (written : List (List Char)) :
    written.length ≤ (followers written).length := by
  induction written with
  | nil => exact Nat.le_refl 0
  | cons first others ih => simp [followers] at ih ⊢; omega

variable {written : List Char} {item : Reader α} {value : α}

theorem run_hasItem_first (h : Begins written) (rest : List Char) :
    StateT.run (hasItem true) (written ++ rest) = .ok (true, written ++ rest) := by
  obtain ⟨c, written, rfl, hblank, hclosing⟩ := h
  rw [List.cons_append, hasItem, StateT.run_bind, run_peek hblank]
  change StateT.run (if c = ']' then _ else if true then _ else _) _ = _
  rw [if_neg hclosing, if_pos rfl]
  rfl

theorem run_hasItem_next (h : Begins written) (rest : List Char) :
    StateT.run (hasItem false) (',' :: (written ++ rest)) = .ok (true, written ++ rest) := by
  obtain ⟨c, written, rfl, hblank, hclosing⟩ := h
  rw [hasItem, StateT.run_bind, run_peek rfl]
  change StateT.run (peek >>= fun c => if c = ']' then throw .malformed else return true)
    (c :: (written ++ rest)) = _
  rw [StateT.run_bind, run_peek hblank]
  change StateT.run (if c = ']' then _ else _) _ = _
  rw [if_neg hclosing]
  rfl

theorem run_hasItem_close (first : Bool) (rest : List Char) :
    StateT.run (hasItem first) (']' :: rest) = .ok (false, ']' :: rest) := by
  rw [hasItem, StateT.run_bind, run_peek rfl]
  rfl

theorem run_itemsFrom_close (fuel : Nat) (taken : List α) (rest : List Char) :
    StateT.run (itemsFrom item (fuel + 1) taken) (']' :: rest) =
      .ok (taken.reverse, ']' :: rest) := by
  rw [itemsFrom, StateT.run_bind, run_hasItem_close]
  rfl

/-- An item is taken if there is one. -/
theorem run_itemsFrom (hread : Reads item written value) {taken : List α} {before rest : List Char}
    (hitem : StateT.run (hasItem taken.isEmpty) before = .ok (true, written ++ rest)) (fuel : Nat) :
    StateT.run (itemsFrom item (fuel + 1) taken) before =
      StateT.run (itemsFrom item fuel (value :: taken)) rest := by
  rw [itemsFrom, StateT.run_bind, hitem]
  change StateT.run (item >>= fun value => itemsFrom item fuel (value :: taken)) _ = _
  rw [StateT.run_bind, hread]
  rfl

theorem run_itemsFrom_followers {others : List (List Char)} {values : List α}
    (h : ReadsEach item others values) {fuel : Nat} (hfuel : others.length ≤ fuel)
    {taken : List α} (htaken : taken ≠ []) (rest : List Char) :
    StateT.run (itemsFrom item (fuel + 1) taken) (followers others ++ ']' :: rest) =
      .ok (taken.reverse ++ values, ']' :: rest) := by
  induction h generalizing fuel taken with
  | nil =>
      rw [List.append_nil]
      exact run_itemsFrom_close fuel taken rest
  | @cons written value others values hfirst _ ih =>
      obtain ⟨fuel, rfl⟩ := Nat.exists_eq_add_of_le' (Nat.one_le_of_lt hfuel)
      have hempty : taken.isEmpty = false := by simpa using htaken
      have hitem : StateT.run (hasItem taken.isEmpty)
          (followers (written :: others) ++ ']' :: rest) =
            .ok (true, written ++ (followers others ++ ']' :: rest)) := by
        rw [hempty, ← run_hasItem_next hfirst.1]
        simp [followers]
      have hnext := ih (Nat.le_of_succ_le_succ hfuel) (List.cons_ne_nil value taken)
      rw [run_itemsFrom hfirst.2 hitem, hnext]
      simp

/-- A list as it is written, from its items. -/
def bracketed (written : List (List Char)) : List Char :=
  '[' :: ([','].intercalate written ++ [']'])

/-- Written items are read back up to the closing bracket. -/
theorem run_itemsFrom_intercalate {all : List (List Char)} {values : List α}
    (h : ReadsEach item all values) {fuel : Nat} (hfuel : all.length ≤ fuel) (rest : List Char) :
    StateT.run (itemsFrom item (fuel + 1) []) ([','].intercalate all ++ ']' :: rest) =
      .ok (values, ']' :: rest) := by
  cases h with
  | nil => exact run_itemsFrom_close fuel [] rest
  | @cons written value others values hfirst hothers =>
      obtain ⟨fuel, rfl⟩ := Nat.exists_eq_add_of_le' (Nat.one_le_of_lt hfuel)
      have hitem : StateT.run (hasItem ([] : List α).isEmpty) _ = _ :=
        run_hasItem_first hfirst.1 (followers others ++ ']' :: rest)
      rw [intercalate_comma_cons, List.append_assoc, run_itemsFrom hfirst.2 hitem,
        run_itemsFrom_followers hothers (Nat.le_of_succ_le_succ hfuel) (List.cons_ne_nil value [])]
      rfl

/-- There is room for all that is written, whatever follows it. -/
theorem length_le_intercalate_comma (all : List (List Char)) (closing : Char) (rest : List Char) :
    all.length ≤ ([','].intercalate all ++ closing :: rest).length := by
  cases all with
  | nil => exact Nat.zero_le _
  | cons first others =>
      have hothers := length_le_followers others
      rw [intercalate_comma_cons, List.length_append, List.length_append, List.length_cons,
        List.length_cons]
      omega

/-- **A list is read back from its items.** -/
theorem reads_takeItems {all : List (List Char)} {values : List α} (h : ReadsEach item all values) :
    Reads (takeItems item) (bracketed all) values := by
  intro rest
  have hlist : bracketed all ++ rest = '[' :: ([','].intercalate all ++ ']' :: rest) := by
    simp [bracketed]
  have hitems := run_itemsFrom_intercalate h (length_le_intercalate_comma all ']' rest) rest
  rw [hlist]
  generalize [','].intercalate all ++ ']' :: rest = inside at hitems
  change StateT.run (itemsFrom item (inside.length + 1) [] >>= fun values =>
    take ']' >>= fun _ => pure values) inside = _
  rw [StateT.run_bind, hitems]
  change StateT.run (take ']' >>= fun _ => pure values) (']' :: rest) = _
  rw [StateT.run_bind, run_take rfl]
  rfl

theorem reads_items {all : List (List Char)} {values : List α} (h : ReadsEach item all values) :
    Reads (items item) (bracketed all) values := by
  intro rest
  have hlist := reads_takeItems h rest
  rw [bracketed, List.cons_append] at hlist ⊢
  rw [items, StateT.run_bind, run_peek rfl]
  exact hlist

theorem toList_compact_list (items : List Json) :
    (compact (.list items)).toList = bracketed (items.map fun item => (compact item).toList) := by
  have hitems : compactItems items = items.map compact := by
    induction items with
    | nil => rfl
    | cons item items ih => rw [compactItems, ih, List.map_cons]
  simp [compact, hitems, bracketed, String.toList_intercalate, Function.comp_def]

/-- **A list of texts is read back.** -/
theorem reads_texts (values : List String) :
    Reads (items text) (compact (texts values)).toList values := by
  have hitems : ReadsEach text (values.map fun value => (quotedText value).toList) values := by
    induction values with
    | nil => exact .nil
    | cons value values ih =>
        exact .cons ⟨⟨_, _, toList_quotedText value, rfl, by decide⟩, reads_text value⟩ ih
  have hlist := reads_items hitems
  rw [texts, toList_compact_list, List.map_map]
  exact hlist

/-! ### Records -/

theorem run_hasKey_first (rest : List Char) :
    StateT.run (hasKey true) ('"' :: rest) = .ok (true, rest) := by
  rw [hasKey, StateT.run_bind, run_peek rfl]
  change StateT.run (take '"' *> pure true) ('"' :: rest) = _
  rw [StateT.run_seqRight, run_take rfl]
  rfl

theorem run_hasKey_next (rest : List Char) :
    StateT.run (hasKey false) (',' :: '"' :: rest) = .ok (true, rest) := by
  rw [hasKey, StateT.run_bind, run_peek rfl]
  change StateT.run (take '"' *> pure true) ('"' :: rest) = _
  rw [StateT.run_seqRight, run_take rfl]
  rfl

theorem run_hasKey_close (first : Bool) (rest : List Char) :
    StateT.run (hasKey first) ('\x7d' :: rest) = .ok (false, '\x7d' :: rest) := by
  rw [hasKey, StateT.run_bind, run_peek rfl]
  rfl

variable {fields : List (Field σ)} {known : Field σ} {key : String} {state next : σ}
  {present : List String}

theorem run_recordEntry (hfield : fields.find? (·.name == key) = some known)
    (hnew : key ∉ present) (hread : Reads (known.enter state) written next) (rest : List Char) :
    StateT.run (recordEntry fields (state, present) key) (':' :: (written ++ rest)) =
      .ok ((next, key :: present), rest) := by
  have hcontains : present.contains key = false := by simpa using hnew
  simp only [recordEntry, hfield, hcontains]
  change StateT.run (take ':' >>= fun _ => known.enter state >>= fun next =>
    pure (next, key :: present)) _ = _
  rw [StateT.run_bind, run_take rfl]
  change StateT.run (known.enter state >>= fun next => pure (next, key :: present)) _ = _
  rw [StateT.run_bind, hread]
  rfl

/-- An entry as it is written, from its key and its value. -/
def entryText (key : String) (written : List Char) : List Char :=
  (quotedText key).toList ++ ':' :: written

theorem run_entriesFrom_close (step : σ → String → Reader σ) (fuel : Nat) (first : Bool)
    (state : σ) (rest : List Char) :
    StateT.run (entriesFrom step (fuel + 1) first state) ('\x7d' :: rest) =
      .ok (state, '\x7d' :: rest) := by
  rw [entriesFrom, StateT.run_bind, run_hasKey_close]
  rfl

/-- An entry is taken if its key follows. -/
theorem run_entriesFrom {step : σ → String → Reader σ} {first : Bool} {before rest : List Char}
    (hkey : StateT.run (hasKey first) before =
      .ok (true, key.toList.flatMap escapedChar ++ '"' :: ':' :: (written ++ rest)))
    (hstep : StateT.run (step state key) (':' :: (written ++ rest)) = .ok (next, rest))
    (fuel : Nat) :
    StateT.run (entriesFrom step (fuel + 1) first state) before =
      StateT.run (entriesFrom step fuel false next) rest := by
  have htext := reads_takeText key (':' :: (written ++ rest))
  rw [List.append_assoc, List.singleton_append] at htext
  rw [entriesFrom, StateT.run_bind, hkey]
  change StateT.run (takeText true >>= fun key => step state key >>= fun next =>
    entriesFrom step fuel false next) _ = _
  rw [StateT.run_bind, htext]
  change StateT.run (step state key >>= fun next => entriesFrom step fuel false next) _ = _
  rw [StateT.run_bind, hstep]
  rfl

/-- Written entries take a record from one state to another. Each of them names a field that was not
there before; what was there is kept next to the state. -/
inductive Enters (fields : List (Field σ)) :
    List (List Char) → σ × List String → σ × List String → Prop where
  | nil (final : σ × List String) : Enters fields [] final final
  | cons {known : Field σ} {key : String} {written : List Char} {state next : σ}
      {present : List String} {others : List (List Char)} {final : σ × List String}
      (hfield : fields.find? (·.name == key) = some known) (hnew : key ∉ present)
      (hread : Reads (known.enter state) written next)
      (hothers : Enters fields others (next, key :: present) final) :
      Enters fields (entryText key written :: others) (state, present) final

/-- One more entry is written behind the others. -/
theorem Enters.concat {all : List (List Char)} {start : σ × List String} {written : List Char}
    (h : Enters fields all start (state, present))
    (hfield : fields.find? (·.name == key) = some known) (hnew : key ∉ present)
    (hread : Reads (known.enter state) written next) :
    Enters fields (all ++ [entryText key written]) start (next, key :: present) := by
  generalize hfinal : (state, present) = final at h
  induction h with
  | nil final =>
      subst hfinal
      exact .cons hfield hnew hread (.nil _)
  | cons hfirst hfirstNew hfirstRead _ ih =>
      exact .cons hfirst hfirstNew hfirstRead (ih hfinal)

theorem run_entriesFrom_followers {others : List (List Char)} {start final : σ × List String}
    (h : Enters fields others start final) {fuel : Nat} (hfuel : others.length ≤ fuel)
    (rest : List Char) :
    StateT.run (entriesFrom (recordEntry fields) (fuel + 1) false start)
      (followers others ++ '\x7d' :: rest) = .ok (final, '\x7d' :: rest) := by
  induction h generalizing fuel with
  | nil final => exact run_entriesFrom_close _ fuel false final rest
  | @cons known key written state next present others final hfield hnew hread _ ih =>
      obtain ⟨fuel, rfl⟩ := Nat.exists_eq_add_of_le' (Nat.one_le_of_lt hfuel)
      have hkey : StateT.run (hasKey false)
          (followers (entryText key written :: others) ++ '\x7d' :: rest) =
            .ok (true, key.toList.flatMap escapedChar ++ '"' :: ':' ::
              (written ++ (followers others ++ '\x7d' :: rest))) := by
        rw [← run_hasKey_next]
        simp [followers, entryText, toList_quotedText]
      rw [run_entriesFrom hkey (run_recordEntry hfield hnew hread _)]
      exact ih (Nat.le_of_succ_le_succ hfuel)

/-- Written entries are read back up to the closing bracket. -/
theorem run_entriesFrom_intercalate {all : List (List Char)} {start final : σ × List String}
    (h : Enters fields all start final) {fuel : Nat} (hfuel : all.length ≤ fuel)
    (rest : List Char) :
    StateT.run (entriesFrom (recordEntry fields) (fuel + 1) true start)
      ([','].intercalate all ++ '\x7d' :: rest) = .ok (final, '\x7d' :: rest) := by
  cases h with
  | nil => exact run_entriesFrom_close _ fuel true start rest
  | @cons known key written state next present others final hfield hnew hread hothers =>
      obtain ⟨fuel, rfl⟩ := Nat.exists_eq_add_of_le' (Nat.one_le_of_lt hfuel)
      have hkey : StateT.run (hasKey true)
          (entryText key written ++ followers others ++ '\x7d' :: rest) =
            .ok (true, key.toList.flatMap escapedChar ++ '"' :: ':' ::
              (written ++ (followers others ++ '\x7d' :: rest))) := by
        rw [← run_hasKey_first]
        simp [entryText, toList_quotedText]
      rw [intercalate_comma_cons,
        run_entriesFrom hkey (run_recordEntry hfield hnew hread _)]
      exact run_entriesFrom_followers hothers (Nat.le_of_succ_le_succ hfuel) rest

theorem run_requireFields {wanted : List (Field σ)}
    (h : ∀ field ∈ wanted, field.absence = .refused → field.name ∈ present) (rest : List Char) :
    StateT.run (requireFields present wanted) rest = .ok ((), rest) := by
  induction wanted with
  | nil => rfl
  | cons field wanted ih =>
      have hpresent : ¬ (field.absence = .refused ∧ !present.contains field.name) := by
        rintro ⟨hrefused, hmissing⟩
        have hmem := h field List.mem_cons_self hrefused
        simp [hmem] at hmissing
      rw [requireFields, if_neg hpresent]
      exact ih fun other hother => h other (List.mem_cons_of_mem _ hother)

/-- A record as it is written, from its entries. -/
def braced (written : List (List Char)) : List Char :=
  '\x7b' :: ([','].intercalate written ++ ['\x7d'])

/-- **A record is read back from its entries**, if it has all the fields it has to have. -/
theorem reads_record {all : List (List Char)} {blank final : σ}
    (h : Enters fields all (blank, []) (final, present))
    (hrequired : ∀ field ∈ fields, field.absence = .refused → field.name ∈ present)
    (name : String) : Reads (record name fields blank) (braced all) final := by
  intro rest
  have hrecord : braced all ++ rest = '\x7b' :: ([','].intercalate all ++ '\x7d' :: rest) := by
    simp [braced]
  have hentries :=
    run_entriesFrom_intercalate h (length_le_intercalate_comma all '\x7d' rest) rest
  rw [hrecord, record, StateT.run_bind, run_peek rfl]
  generalize [','].intercalate all ++ '\x7d' :: rest = inside at hentries
  change StateT.run (entriesFrom (recordEntry fields) (inside.length + 1) true (blank, []) >>=
    fun read => requireFields read.2 fields >>= fun _ => take '\x7d' >>= fun _ => pure read.1)
    inside = _
  rw [StateT.run_bind, hentries]
  change StateT.run (requireFields present fields >>= fun _ => take '\x7d' >>= fun _ => pure final)
    ('\x7d' :: rest) = _
  rw [StateT.run_bind, run_requireFields hrequired]
  change StateT.run (take '\x7d' >>= fun _ => pure final) ('\x7d' :: rest) = _
  rw [StateT.run_bind, run_take rfl]
  rfl

end Highlight.Json.Reader
