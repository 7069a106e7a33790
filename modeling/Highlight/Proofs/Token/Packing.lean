import Highlight.Proofs.Token.Metadata
import Mathlib.Algebra.Group.Nat.Defs
import Mathlib.Tactic.SplitIfs

/-!
# Words are taken apart and put together

Every bit of a packed word belongs to one field, and every field is a window of bits
(`testBit_pack`, `testBit_field`). So a word can be compared with the word of its own fields bit by
bit. They differ at most in the bits of the token kind, since combinations without a meaning stand
for any other token.
-/

namespace Highlight.Metadata

variable {language : LanguageId} {kind : TokenKind} {font : FontStyle}
  {foreground background : Nat}

/-! ### Bits and fields -/

/-- A field is a window of bits. -/
theorem testBit_field (m : Metadata) (low width bit : Nat) :
    (m.field (2 ^ low) (2 ^ width)).testBit bit =
      (decide (bit < width) && m.bits.toNat.testBit (low + bit)) := by
  rw [field, Nat.testBit_mod_two_pow, Nat.testBit_div_two_pow, Nat.add_comm]

/-- The fields of a word, from the least significant bit on: eight bits for the language, three each
for the kind and the font style, nine each for the colors. -/
theorem testBit_pack (bit : Nat) :
    (pack language kind font foreground background).bits.toNat.testBit bit =
      if bit < 8 then language.value.toNat.testBit bit
      else if bit < 11 then kind.code.testBit (bit - 8)
      else if bit < 14 then font.bits.toNat.testBit (bit - 11)
      else if bit < 23 then foreground.testBit (bit - 14)
      else decide (bit < 32) && background.testBit (bit - 23) := by
  have hlanguage : language.value.toNat < 2 ^ 8 := language.value.toNat_lt
  have hkind : kind.code < 2 ^ 3 := Nat.lt_of_le_of_lt (code_le kind) (by decide)
  have hfont : font.bits.toNat % 2 ^ 3 < 2 ^ 3 := Nat.mod_lt _ (by decide)
  have hforeground : foreground % 2 ^ 9 < 2 ^ 9 := Nat.mod_lt _ (by decide)
  -- the fields, nested from the least significant one outwards
  have hnested : packed language kind font foreground background =
      2 ^ 8 * (2 ^ 3 * (2 ^ 3 * (2 ^ 9 * (background % 2 ^ 9) + foreground % 2 ^ 9) +
        font.bits.toNat % 2 ^ 3) + kind.code) + language.value.toNat := by
    simp only [packed]
    omega
  have h11 : bit - 8 < 3 ↔ bit < 11 := by omega
  have h14 : bit - 11 < 3 ↔ bit < 14 := by omega
  have h23 : bit - 14 < 9 ↔ bit < 23 := by omega
  have h32 : bit - 23 < 9 ↔ bit < 32 := by omega
  rw [toNat_bits_pack, hnested, Nat.testBit_two_pow_mul_add _ hlanguage,
    Nat.testBit_two_pow_mul_add _ hkind, Nat.testBit_two_pow_mul_add _ hfont,
    Nat.testBit_two_pow_mul_add _ hforeground]
  simp only [Nat.testBit_mod_two_pow, Nat.sub_sub, Nat.reduceAdd, h11, h14, h23, h32]
  split_ifs with _ _ hstyle hcolor
  · rfl
  · rfl
  · simp [hstyle]
  · simp [hcolor]
  · rfl

@[simp] theorem language_pack :
    (pack language kind font foreground background).language = language := by
  have hlanguage := language.value.toNat_lt
  have hcode := code_le kind
  have hfield : (pack language kind font foreground background).field 1 256 =
      language.value.toNat := by
    simp only [field, toNat_bits_pack, packed]
    omega
  rw [Metadata.language, hfield]
  cases language
  simp

/-! ### The word of its own fields -/

/-- The bits that hold the token kind. -/
def kindBits (m : Metadata) : Nat := m.field 256 8

/-- The word that the fields of a word are packed into. -/
def repacked (m : Metadata) : Metadata :=
  pack m.language m.kind m.fontStyle m.foreground m.background

theorem toNat_value_language (m : Metadata) : m.language.value.toNat = m.field 1 256 := by
  have hlt : m.field 1 256 < 2 ^ 8 := Nat.mod_lt _ (by decide)
  simpa [Metadata.language] using hlt

theorem toNat_bits_fontStyle (m : Metadata) : m.fontStyle.bits.toNat = m.field 2048 8 := by
  have hlt : m.field 2048 8 < 8 := Nat.mod_lt _ (by decide)
  have hbyte : m.field 2048 8 < 2 ^ 8 := by omega
  simpa [Metadata.fontStyle] using hbyte

/-- All bits but those of the kind are packed again as they are. -/
theorem testBit_repacked (m : Metadata) (bit : Nat) :
    m.repacked.bits.toNat.testBit bit =
      if 8 ≤ bit ∧ bit < 11 then m.kind.code.testBit (bit - 8) else m.bits.toNat.testBit bit := by
  have hlanguage := testBit_field m 0 8
  have hfont := testBit_field m 11 3
  have hforeground := testBit_field m 14 9
  have hbackground := testBit_field m 23 9
  have hbeyond (hbit : 32 ≤ bit) : m.bits.toNat.testBit bit = false :=
    Nat.testBit_lt_two_pow <|
      Nat.lt_of_lt_of_le m.bits.toNat_lt <| Nat.pow_le_pow_right (by decide) hbit
  simp only [Nat.reducePow] at hlanguage hfont hforeground hbackground
  rw [repacked, testBit_pack, toNat_value_language, toNat_bits_fontStyle, Metadata.foreground,
    Metadata.background, hlanguage, hfont, hforeground, hbackground]
  grind

theorem eq_of_testBit {m m' : Metadata}
    (h : ∀ bit, m.bits.toNat.testBit bit = m'.bits.toNat.testBit bit) : m = m' := by
  have hbits : m.bits = m'.bits := UInt32.toNat_inj.mp (Nat.eq_of_testBit_eq h)
  cases m
  cases m'
  exact congrArg Metadata.mk hbits

/-- The combinations with a meaning are the codes of the kinds. -/
theorem code_kind_of_mem {m : Metadata} (hkind : m.kindBits ∈ [0, 1, 2, 4]) :
    m.kind.code = m.kindBits := by
  simp only [List.mem_cons, List.not_mem_nil, or_false] at hkind
  unfold kindBits at hkind ⊢
  rw [Metadata.kind]
  rcases hkind with h | h | h | h <;> rw [h] <;> rfl

/-- All other combinations stand for the kind whose bits are clear. -/
theorem code_kind_of_not_mem {m : Metadata} (hkind : m.kindBits ∉ [0, 1, 2, 4]) :
    m.kind.code = 0 := by
  simp only [List.mem_cons, List.not_mem_nil, or_false, not_or] at hkind
  obtain ⟨-, hcomment, hstring, hregex⟩ := hkind
  unfold kindBits at hcomment hstring hregex
  rw [Metadata.kind, TokenKind.ofCode]
  · rfl
  · exact hcomment
  · exact hstring
  · exact hregex

theorem repacked_of_mem {m : Metadata} (hkind : m.kindBits ∈ [0, 1, 2, 4]) : m.repacked = m := by
  refine eq_of_testBit fun bit => ?_
  have hwindow := testBit_field m 8 3 (bit - 8)
  rw [testBit_repacked, code_kind_of_mem hkind, kindBits]
  split_ifs with hbit
  · have hinside : bit - 8 < 3 := by omega
    have hplace : 8 + (bit - 8) = bit := by omega
    rw [hplace] at hwindow
    simpa [hinside] using hwindow
  · rfl

theorem testBit_repacked_of_not_mem {m : Metadata} (hkind : m.kindBits ∉ [0, 1, 2, 4]) (bit : Nat) :
    m.repacked.bits.toNat.testBit bit =
      (m.bits.toNat.testBit bit && !decide (8 ≤ bit ∧ bit < 11)) := by
  rw [testBit_repacked, code_kind_of_not_mem hkind, Nat.zero_testBit]
  split_ifs with hbit <;> simp [hbit]

/-- The language that is exchanged last decides. -/
theorem withLanguage_withLanguage (m : Metadata) (first last : LanguageId) :
    (m.withLanguage first).withLanguage last = m.withLanguage last := by
  refine eq_of_testBit fun bit => ?_
  simp only [testBit_withLanguage]
  split_ifs <;> rfl

/-! ### The main result -/

/-- **Words are taken apart and put together.** The fields of a packed word are those that it was
packed from, with color indices cut to nine bits. Packing the fields of any word gives back that
word if its token kind is one of the four combinations with a meaning, and otherwise the same word
with the bits of the kind cleared. Exchanging the language changes that field and no other bit, and
only the last exchange counts. -/
theorem fields_packed :
    (∀ (language : LanguageId) (kind : TokenKind) (font : FontStyle) (foreground background : Nat),
        font.Known →
          let m := pack language kind font foreground background
          m.language = language ∧ m.kind = kind ∧ m.fontStyle = font ∧
            m.foreground = foreground % 512 ∧ m.background = background % 512) ∧
      (∀ m : Metadata,
        (m.kindBits ∈ [0, 1, 2, 4] → m.repacked = m) ∧
          (m.kindBits ∉ [0, 1, 2, 4] → ∀ bit,
            m.repacked.bits.toNat.testBit bit =
              (m.bits.toNat.testBit bit && !decide (8 ≤ bit ∧ bit < 11)))) ∧
      ∀ (m : Metadata) (k l : LanguageId),
        (m.withLanguage l).language = l ∧
          ((m.withLanguage l).kind = m.kind ∧ (m.withLanguage l).fontStyle = m.fontStyle ∧
            (m.withLanguage l).foreground = m.foreground ∧
            (m.withLanguage l).background = m.background) ∧
          (∀ bit, 8 ≤ bit →
            (m.withLanguage l).bits.toNat.testBit bit = m.bits.toNat.testBit bit) ∧
          (m.withLanguage k).withLanguage l = m.withLanguage l := by
  refine ⟨?_, fun m => ⟨repacked_of_mem, testBit_repacked_of_not_mem⟩, fun m k l => ?_⟩
  · intro language kind font foreground background hfont
    exact ⟨language_pack, kind_pack, fontStyle_pack hfont, foreground_pack, background_pack⟩
  · refine ⟨language_withLanguage m l, ⟨kind_withLanguage m l, fontStyle_withLanguage m l,
      foreground_withLanguage m l, background_withLanguage m l⟩, ?_,
      withLanguage_withLanguage m k l⟩
    intro bit hbit
    rw [testBit_withLanguage, if_neg (Nat.not_lt.mpr hbit)]

/-- Indices that do not fit, the greatest word, whose kind has no meaning, and the greatest word
that has one. -/
theorem fields_packed_extreme :
    let underlined : FontStyle := ⟨7⟩
    let packed := pack ⟨255⟩ .regex underlined 1023 65024
    let full : Metadata := ⟨4294967295⟩
    let valid : Metadata := ⟨4294966527⟩
    (underlined.Known ∧ full.kindBits ∉ [0, 1, 2, 4] ∧ valid.kindBits ∈ [0, 1, 2, 4]) ∧
      (packed.foreground = 511 ∧ packed.background = 0 ∧ packed.kind = .regex) ∧
      (full.repacked.bits.toNat.testBit 10 = false ∧ full.repacked.bits.toNat.testBit 11 = true) ∧
      valid.repacked = valid ∧
      (full.withLanguage ⟨3⟩).bits.toNat.testBit 8 = true := by
  intro underlined packed full valid
  have hknown : underlined.Known := by decide
  have hnone : full.kindBits ∉ [0, 1, 2, 4] := by decide
  have hregex : valid.kindBits ∈ [0, 1, 2, 4] := by decide
  obtain ⟨hpack, hrepack, hlanguage⟩ := fields_packed
  obtain ⟨-, hkind, -, hforeground, hbackground⟩ :=
    hpack ⟨255⟩ .regex underlined 1023 65024 hknown
  have hcleared := (hrepack full).2 hnone
  obtain ⟨-, -, hupper, -⟩ := hlanguage full ⟨0⟩ ⟨3⟩
  exact ⟨⟨hknown, hnone, hregex⟩, ⟨hforeground, hbackground, hkind⟩,
    ⟨(hcleared 10).trans (by decide), (hcleared 11).trans (by decide)⟩, (hrepack valid).1 hregex,
    (hupper 8 (by decide)).trans (by decide)⟩

end Highlight.Metadata
