import Highlight.Proofs.Text.Breaks
import Mathlib.Tactic.SplitIfs

/-!
# Lines can be sliced out of the bytes of a text

Breaks are bytes, and a text may be cut into lines without looking at its characters: a scan of the
bytes keeps where the current line began, and slices the text at each break. Slicing fails if an
offset lies inside of a character. It never does (`scan_eq_lines`): a byte below 128 is a character
of its own, so breaks are found in between other characters, and what is sliced out are characters
as a whole.

The scan is compared with the lines of the characters that are left. Those that have been passed are
either in front of the current line or in it, and this split of the text carries the induction.
-/

namespace Highlight.Text

/-! ### Bytes -/

/-- The bytes of a text. -/
def bytesOf (cs : List Char) : List UInt8 := cs.flatMap String.utf8EncodeChar

/-- Slices a text between two byte offsets. There is no slice if an offset lies inside of a
character or the offsets have crossed. -/
def slice? (s : String) (start stop : Nat) : Option String :=
  if h : (String.Pos.Raw.mk start).IsValid s ∧ (String.Pos.Raw.mk stop).IsValid s ∧
      start ≤ stop then
    some (s.extract ⟨⟨start⟩, h.1⟩ ⟨⟨stop⟩, h.2.1⟩)
  else none

/-- Scans the bytes of a text from offset `i` on, when the current line began at `start`. Gives the
lines from there on, unless slicing fails. -/
def scanFrom (s : String) (start i : Nat) : List UInt8 → Option (List String)
  | [] => do
      let last ← slice? s start s.utf8ByteSize
      return [last]
  | 13 :: 10 :: bytes => do
      let line ← slice? s start i
      let rest ← scanFrom s (i + 2) (i + 2) bytes
      return line :: rest
  | byte :: bytes =>
      if byte = 10 ∨ byte = 13 then do
        let line ← slice? s start i
        let rest ← scanFrom s (i + 1) (i + 1) bytes
        return line :: rest
      else scanFrom s start (i + 1) bytes

/-- Scans the bytes of a text. -/
def scan (s : String) : Option (List String) := scanFrom s 0 0 s.toByteArray.data.toList

theorem bytesOf_append (front back : List Char) :
    bytesOf (front ++ back) = bytesOf front ++ bytesOf back := List.flatMap_append

theorem toList_data_toByteArray (s : String) :
    s.toByteArray.data.toList = bytesOf s.toList := by
  rw [← String.utf8Encode_toList, List.utf8Encode, List.toList_data_toByteArray, bytesOf]

theorem utf8ByteSize_ofList (cs : List Char) :
    (String.ofList cs).utf8ByteSize = (bytesOf cs).length := by
  have hbytes := toList_data_toByteArray (String.ofList cs)
  rw [String.toList_ofList] at hbytes
  rw [← String.size_toByteArray, ← hbytes, Array.length_toList]
  rfl

/-- Offsets between characters are valid. -/
theorem isValid_between (front back : List Char) :
    (String.Pos.Raw.mk (bytesOf front).length).IsValid (String.ofList (front ++ back)) := by
  refine String.Pos.Raw.isValid_iff_exists_append.mpr
    ⟨String.ofList front, String.ofList back, String.ofList_append, ?_⟩
  rw [String.Pos.Raw.ext_iff, String.byteIdx_rawEndPos, utf8ByteSize_ofList]

/-- Characters as a whole can be sliced out. -/
theorem slice?_between {s : String} {start stop : Nat} {front line back : List Char}
    (hs : s = String.ofList (front ++ line ++ back)) (hfirst : start = (bytesOf front).length)
    (hlast : stop = (bytesOf (front ++ line)).length) :
    slice? s start stop = some (String.ofList line) := by
  subst hs hfirst hlast
  have hstart := isValid_between front (line ++ back)
  have hstop := isValid_between (front ++ line) back
  have hle : (bytesOf front).length ≤ (bytesOf (front ++ line)).length := by
    rw [bytesOf_append, List.length_append]
    exact Nat.le_add_right ..
  rw [← List.append_assoc] at hstart
  rw [slice?, dif_pos ⟨hstart, hstop, hle⟩]
  refine congrArg some ?_
  have hfront : (bytesOf front).length = (String.ofList front).toByteArray.size := by
    rw [String.size_toByteArray, utf8ByteSize_ofList]
  have hline : (bytesOf line).length = (String.ofList line).toByteArray.size := by
    rw [String.size_toByteArray, utf8ByteSize_ofList]
  refine String.toByteArray_inj.mp ?_
  change (String.ofList (front ++ line ++ back)).toByteArray.extract (bytesOf front).length
    (bytesOf (front ++ line)).length = _
  rw [List.append_assoc, String.ofList_append, String.ofList_append, String.toByteArray_append,
    String.toByteArray_append, bytesOf_append, List.length_append]
  exact (ByteArray.extract_append_size_add' hfront (i := 0)).trans
    (ByteArray.extract_append_eq_left hline)

/-! ### Breaks are bytes -/

/-- Characters of several bytes have no byte below 128. -/
theorem le_of_mem_utf8EncodeChar {c : Char} (hc : c.utf8Size ≠ 1) :
    ∀ byte ∈ String.utf8EncodeChar c, 128 ≤ byte.toNat := by
  have hmarked (low mark : UInt8) (hmark : 128 ≤ mark.toNat) : 128 ≤ (low ||| mark).toNat := by
    rw [UInt8.toNat_or]
    exact Nat.le_trans hmark Nat.right_le_or
  have hnext (low : UInt8) : 128 ≤ (low ||| 0x80).toNat := hmarked low _ (by decide)
  obtain hsize | hsize | hsize | hsize := Char.utf8Size_eq c
  · exact absurd hsize hc
  · rw [String.utf8EncodeChar_eq_cons_cons hsize]
    simp only [List.forall_mem_cons]
    exact ⟨hmarked _ 0xc0 (by decide), hnext _, by simp⟩
  · rw [String.utf8EncodeChar_eq_cons_cons_cons hsize]
    simp only [List.forall_mem_cons]
    exact ⟨hmarked _ 0xe0 (by decide), hnext _, hnext _, by simp⟩
  · rw [String.utf8EncodeChar_eq_cons_cons_cons_cons hsize]
    simp only [List.forall_mem_cons]
    exact ⟨hmarked _ 0xf0 (by decide), hnext _, hnext _, hnext _, by simp⟩

/-- A byte below 128 is that of the character with the same code. -/
theorem toNat_of_mem_utf8EncodeChar {c : Char} {byte : UInt8}
    (hbyte : byte ∈ String.utf8EncodeChar c) (hsmall : byte.toNat < 128) :
    c.toNat = byte.toNat := by
  by_cases hsize : c.utf8Size = 1
  · have hle : c.toNat ≤ 127 := UInt32.le_iff_toNat_le.mp (Char.utf8Size_eq_one_iff.mp hsize)
    rw [String.utf8EncodeChar_eq_singleton hsize] at hbyte
    rw [List.mem_singleton.mp hbyte, UInt32.toNat_toUInt8, Char.toNat_val]
    omega
  · exact absurd hsmall (Nat.not_lt.mpr (le_of_mem_utf8EncodeChar hsize byte hbyte))

/-- No byte of another character looks like a break. -/
theorem not_break_of_mem_utf8EncodeChar {c : Char} (hc : ¬ (c = '\n' ∨ c = '\r')) :
    ∀ byte ∈ String.utf8EncodeChar c, ¬ (byte = 10 ∨ byte = 13) := by
  intro byte hbyte hbreak
  refine hc ?_
  rcases hbreak with rfl | rfl
  · exact .inl (Char.toNat_inj.mp (toNat_of_mem_utf8EncodeChar hbyte (by decide)))
  · exact .inr (Char.toNat_inj.mp (toNat_of_mem_utf8EncodeChar hbyte (by decide)))

/-! ### The scan -/

variable {s : String} {start i : Nat} {byte : UInt8} {bytes : List UInt8}

theorem scanFrom_single (hpair : ∀ rest, byte = 13 → bytes ≠ 10 :: rest)
    (hbyte : byte = 10 ∨ byte = 13) :
    scanFrom s start i (byte :: bytes) = (do
      let line ← slice? s start i
      let rest ← scanFrom s (i + 1) (i + 1) bytes
      return line :: rest) := by
  rw [scanFrom, if_pos hbyte]
  exact hpair

theorem scanFrom_pass (hbyte : ¬ (byte = 10 ∨ byte = 13)) :
    scanFrom s start i (byte :: bytes) = scanFrom s start (i + 1) bytes := by
  rw [scanFrom, if_neg hbyte]
  rintro rest rfl
  exact absurd (.inr rfl) hbyte

/-- Bytes that are no breaks are passed. -/
theorem scanFrom_append {front : List UInt8} (hfront : ∀ byte ∈ front, ¬ (byte = 10 ∨ byte = 13)) :
    scanFrom s start i (front ++ bytes) = scanFrom s start (i + front.length) bytes := by
  induction front generalizing i with
  | nil => rfl
  | cons byte front ih =>
      rw [List.forall_mem_cons] at hfront
      rw [List.cons_append, scanFrom_pass hfront.1, ih hfront.2, List.length_cons]
      congr 1
      omega

/-- Bytes begin with a line feed if the characters do. -/
theorem eq_cons_of_bytesOf {cs : List Char} {rest : List UInt8} (h : bytesOf cs = 10 :: rest) :
    ∃ cs', cs = '\n' :: cs' := by
  cases cs with
  | nil => cases h
  | cons c cs =>
      have hbyte : (10 : UInt8) ∈ String.utf8EncodeChar c := by
        cases hchar : String.utf8EncodeChar c with
        | nil => exact absurd hchar String.utf8EncodeChar_ne_nil
        | cons byte bytes =>
            rw [bytesOf, List.flatMap_cons, hchar] at h
            rw [(List.cons.inj h).1]
            exact List.mem_cons_self
      have hc : c = '\n' := Char.toNat_inj.mp (toNat_of_mem_utf8EncodeChar hbyte (by decide))
      exact ⟨cs, hc ▸ rfl⟩

theorem modifyHead_nil_append (lines : List (List Char)) : lines.modifyHead ([] ++ ·) = lines := by
  cases lines <;> rfl

theorem modifyHead_consPiece {lines : List (List Char)} (hlines : lines ≠ []) (line : List Char)
    (c : Char) :
    (consPiece c lines).modifyHead (line ++ ·) = lines.modifyHead (line ++ [c] ++ ·) := by
  cases lines with
  | nil => exact absurd rfl hlines
  | cons first rest => simp [consPiece]

/-- The scan from the middle of a line on gives this line and those behind it. -/
theorem scanFrom_eq_linesOf {front line rest : List Char}
    (hs : s = String.ofList (front ++ line ++ rest)) (hstart : start = (bytesOf front).length)
    (hi : i = (bytesOf (front ++ line)).length) :
    scanFrom s start i (bytesOf rest) =
      some (((linesOf rest).modifyHead (line ++ ·)).map String.ofList) := by
  fun_induction breaksOf rest generalizing front line start i with
  | case1 =>
      have hend : s.utf8ByteSize = i := by rw [hs, hi, utf8ByteSize_ofList, List.append_nil]
      have hscan : scanFrom s start i (bytesOf []) = (do
          let last ← slice? s start s.utf8ByteSize
          return [last]) := rfl
      rw [hscan, hend, slice?_between hs hstart hi]
      simp [linesOf]
  | case2 cs ih =>
      have hscan : scanFrom s start i (bytesOf ('\r' :: '\n' :: cs)) = (do
          let line ← slice? s start i
          let rest ← scanFrom s (i + 2) (i + 2) (bytesOf cs)
          return line :: rest) := rfl
      have hnext : i + 2 = (bytesOf (front ++ line ++ ['\r', '\n'])).length := by
        rw [bytesOf_append, List.length_append, ← hi]
        rfl
      have hsplit : s = String.ofList (front ++ line ++ ['\r', '\n'] ++ [] ++ cs) := by simp [hs]
      have hrest := ih hsplit hnext (hnext.trans (by rw [List.append_nil]))
      rw [hscan, slice?_between hs hstart hi, hrest, modifyHead_nil_append]
      simp [linesOf]
  | case3 c cs hpair hc ih =>
      obtain ⟨byte, hchar, hbyte, hreturn⟩ : ∃ byte, String.utf8EncodeChar c = [byte] ∧
          (byte = 10 ∨ byte = 13) ∧ (byte = 13 → c = '\r') := by
        rcases hc with rfl | rfl
        · exact ⟨10, rfl, .inl rfl, fun h => absurd h (by decide)⟩
        · exact ⟨13, rfl, .inr rfl, fun _ => rfl⟩
      have hscan : scanFrom s start i (bytesOf (c :: cs)) = (do
          let line ← slice? s start i
          let rest ← scanFrom s (i + 1) (i + 1) (bytesOf cs)
          return line :: rest) := by
        rw [bytesOf, List.flatMap_cons, hchar]
        refine scanFrom_single (fun rest hbyte hrest => ?_) hbyte
        obtain ⟨later, hlater⟩ := eq_cons_of_bytesOf hrest
        exact hpair later (hreturn hbyte) hlater
      have hnext : i + 1 = (bytesOf (front ++ line ++ [c])).length := by
        rw [bytesOf_append, List.length_append, ← hi, bytesOf, List.flatMap_singleton, hchar]
        rfl
      have hsplit : s = String.ofList (front ++ line ++ [c] ++ [] ++ cs) := by simp [hs]
      have hrest := ih hsplit hnext (hnext.trans (by rw [List.append_nil]))
      rw [hscan, slice?_between hs hstart hi, hrest, modifyHead_nil_append, linesOf_single hpair hc]
      simp
  | case4 c cs _ hc ih =>
      have hnext : i + (String.utf8EncodeChar c).length =
          (bytesOf (front ++ (line ++ [c]))).length := by
        rw [← List.append_assoc, bytesOf_append, List.length_append, ← hi]
        simp [bytesOf]
      have hsplit : s = String.ofList (front ++ (line ++ [c]) ++ cs) := by simp [hs]
      have hrest := ih hsplit hstart hnext
      rw [bytesOf, List.flatMap_cons, scanFrom_append (not_break_of_mem_utf8EncodeChar hc),
        linesOf_char hc, modifyHead_consPiece (linesOf_ne_nil cs)]
      exact hrest

/-- The scan never fails to slice, and gives the lines. -/
theorem scan_eq_lines (s : String) : scan s = some (lines s) := by
  have hs : s = String.ofList ([] ++ [] ++ s.toList) := by simp
  have hstart : 0 = (bytesOf []).length := rfl
  have hscan := scanFrom_eq_linesOf hs hstart hstart
  rw [scan, toList_data_toByteArray, hscan, modifyHead_nil_append, lines]

/-! ### The main result -/

/-- **Lines of a text.** The lines are the pieces between line feeds once every pair of carriage
return and line feed, and then every carriage return that is left, has been rewritten as a line
feed. So they hold no breaks, and there is one more of them than there are breaks, where a pair is
one break. With the breaks that were there in between they make up the text. A scan of the bytes of
the text finds them too, and all its slices begin and end between characters. -/
theorem lines_split (s : String) :
    (lines s = (pieces (· == '\n') (unified s.toList)).map String.ofList ∧
        ∀ line ∈ lines s, '\n' ∉ line.toList ∧ '\r' ∉ line.toList) ∧
      ((lines s).length = (breaksOf s.toList).length + 1 ∧
        (breaksOf s.toList).length + pairCount s.toList =
          s.toList.count '\n' + s.toList.count '\r') ∧
      (interleave ((lines s).map String.toList) (breaksOf s.toList) = s.toList ∧
        ∀ lineBreak ∈ breaksOf s.toList, lineBreak ∈ [['\r', '\n'], ['\r'], ['\n']]) ∧
      scan s = some (lines s) := by
  refine ⟨⟨?_, ?_⟩, ⟨?_, length_breaksOf s.toList⟩, ⟨?_, fun _ => mem_breaksOf⟩, scan_eq_lines s⟩
  · rw [lines, linesOf_eq_pieces]
  · intro line hline
    obtain ⟨chars, hchars, rfl⟩ := List.mem_map.mp hline
    have hplain := not_break_of_mem_linesOf hchars
    rw [String.toList_ofList]
    exact ⟨fun hmem => (hplain _ hmem).1 rfl, fun hmem => (hplain _ hmem).2 rfl⟩
  · rw [lines, List.length_map, length_linesOf]
  · have hchars : (lines s).map String.toList = linesOf s.toList := by
      simp [lines, Function.comp_def]
    rw [hchars, interleave_linesOf]

/-- Breaks of all kinds next to each other, around a character of two bytes and at both ends. -/
theorem lines_split_mixed :
    let s := "\r\r\né\n\rx\r\n"
    lines s = ["", "", "é", "", "x", ""] ∧
      ("é" ∈ lines s ∧ '\n' ∉ "é".toList ∧ '\r' ∉ "é".toList) ∧
      (lines s).length = (breaksOf s.toList).length + 1 ∧
      (['\r', '\n'] ∈ breaksOf s.toList ∧
        ['\r', '\n'] ∈ [['\r', '\n'], ['\r'], ['\n']]) ∧
      scan s = some ["", "", "é", "", "x", ""] := by
  intro s
  obtain ⟨⟨-, hplain⟩, ⟨hlength, -⟩, ⟨-, hkinds⟩, hscan⟩ := lines_split s
  have hlines : lines s = ["", "", "é", "", "x", ""] := by decide
  have hmem : "é" ∈ lines s := by simp [hlines]
  have hpair : ['\r', '\n'] ∈ breaksOf s.toList := by decide
  exact ⟨hlines, ⟨hmem, hplain "é" hmem⟩, hlength, ⟨hpair, hkinds _ hpair⟩, hlines ▸ hscan⟩

end Highlight.Text
