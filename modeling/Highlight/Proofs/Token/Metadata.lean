import Highlight.Token.Metadata

/-!
# The fields of packed words

Every field of a packed word can be read back: the fields fill disjoint ranges of bits, so a packed
word is below 2³² (`packed_lt`) and each field is a quotient of it. Exchanging the language touches
the lowest byte only, so it changes no other field.
-/

namespace Highlight

/-- Font styles with the three known flags only. -/
def FontStyle.Known (style : FontStyle) : Prop := style.bits < 8

instance : DecidablePred FontStyle.Known := fun style =>
  inferInstanceAs (Decidable (style.bits < 8))

theorem FontStyle.toNat_bits_ofBits (bits : UInt8) :
    (FontStyle.ofBits bits).bits.toNat = bits.toNat % 8 :=
  (UInt8.toNat_and ..).trans (Nat.and_two_pow_sub_one_eq_mod _ 3)

/-- Known flags are all kept. -/
theorem FontStyle.Known.ofBits_bits {style : FontStyle} (h : style.Known) :
    FontStyle.ofBits style.bits = style := by
  have hlt : style.bits.toNat < 8 := UInt8.lt_iff_toNat_lt.mp h
  have hbits : (FontStyle.ofBits style.bits).bits = style.bits := by
    apply UInt8.toNat_inj.mp
    rw [toNat_bits_ofBits, Nat.mod_eq_of_lt hlt]
  cases style
  exact congrArg FontStyle.mk hbits

namespace Metadata

variable {language : LanguageId} {kind : TokenKind} {font : FontStyle}
  {foreground background : Nat}

/-! ### Packing -/

theorem code_le (kind : TokenKind) : kind.code ≤ 4 := by
  cases kind <;> decide

theorem ofCode_code (kind : TokenKind) : TokenKind.ofCode kind.code = kind := by
  cases kind <;> rfl

theorem packed_lt (language : LanguageId) (kind : TokenKind) (font : FontStyle)
    (foreground background : Nat) :
    packed language kind font foreground background < 4294967296 := by
  have hlanguage := language.value.toNat_lt
  have hcode := code_le kind
  simp only [packed]
  omega

/-- The bits of a packed word are the sum of its fields. -/
theorem toNat_bits_pack (language : LanguageId) (kind : TokenKind) (font : FontStyle)
    (foreground background : Nat) :
    (pack language kind font foreground background).bits.toNat =
      packed language kind font foreground background := by
  simp only [pack, Nat.toUInt32, UInt32.toNat_ofNat']
  exact Nat.mod_eq_of_lt (packed_lt language kind font foreground background)

@[simp] theorem foreground_pack :
    (pack language kind font foreground background).foreground = foreground % 512 := by
  have hlanguage := language.value.toNat_lt
  have hcode := code_le kind
  simp only [Metadata.foreground, field, toNat_bits_pack, packed]
  omega

@[simp] theorem background_pack :
    (pack language kind font foreground background).background = background % 512 := by
  have hlanguage := language.value.toNat_lt
  have hcode := code_le kind
  simp only [Metadata.background, field, toNat_bits_pack, packed]
  omega

@[simp] theorem kind_pack : (pack language kind font foreground background).kind = kind := by
  have hlanguage := language.value.toNat_lt
  have hcode := code_le kind
  have hfield : (pack language kind font foreground background).field 256 8 = kind.code := by
    simp only [field, toNat_bits_pack, packed]
    omega
  rw [Metadata.kind, hfield, ofCode_code]

/-- A packed word has room for the known flags only. -/
theorem fontStyle_pack_eq_ofBits :
    (pack language kind font foreground background).fontStyle = .ofBits font.bits := by
  have hlanguage := language.value.toNat_lt
  have hcode := code_le kind
  have hfield : (pack language kind font foreground background).field 2048 8 =
      font.bits.toNat % 8 := by
    simp only [field, toNat_bits_pack, packed]
    omega
  rw [Metadata.fontStyle, hfield, ← FontStyle.toNat_bits_ofBits]
  simp

/-- The font style of a packed word, as long as it has no unknown flags. -/
theorem fontStyle_pack (hfont : font.Known) :
    (pack language kind font foreground background).fontStyle = font := by
  rw [fontStyle_pack_eq_ofBits, hfont.ofBits_bits]

/-! ### Exchanging the language -/

theorem toNat_bits_withLanguage (m : Metadata) (language : LanguageId) :
    (m.withLanguage language).bits.toNat = m.bits.toNat / 256 * 256 + language.value.toNat := by
  have hbits := m.bits.toNat_lt
  have hlanguage := language.value.toNat_lt
  simp only [withLanguage, Nat.toUInt32, UInt32.toNat_ofNat']
  exact Nat.mod_eq_of_lt (by omega)

/-- The lowest byte is that of the new language, and all other bits stay. -/
theorem testBit_withLanguage (m : Metadata) (language : LanguageId) (bit : Nat) :
    (m.withLanguage language).bits.toNat.testBit bit =
      if bit < 8 then language.value.toNat.testBit bit else m.bits.toNat.testBit bit := by
  have hlanguage : language.value.toNat < 2 ^ 8 := language.value.toNat_lt
  rw [toNat_bits_withLanguage, Nat.mul_comm, Nat.testBit_two_pow_mul_add (i := 8) _ hlanguage]
  split
  · rfl
  · next hupper =>
      have hbit : bit - 8 + 8 = bit := by omega
      rw [Nat.testBit_div_two_pow (n := 8), hbit]

@[simp] theorem language_withLanguage (m : Metadata) (language : LanguageId) :
    (m.withLanguage language).language = language := by
  have hlanguage := language.value.toNat_lt
  have hfield : (m.withLanguage language).field 1 256 = language.value.toNat := by
    simp only [field, toNat_bits_withLanguage]
    omega
  rw [Metadata.language, hfield]
  cases language
  simp

/-- No field above the lowest byte depends on the language. -/
theorem field_withLanguage (m : Metadata) (language : LanguageId) (weight size : Nat) :
    (m.withLanguage language).field (256 * weight) size = m.field (256 * weight) size := by
  have hlanguage := language.value.toNat_lt
  have hupper : (m.bits.toNat / 256 * 256 + language.value.toNat) / 256 = m.bits.toNat / 256 := by
    omega
  simp only [field, toNat_bits_withLanguage, ← Nat.div_div_eq_div_mul, hupper]

@[simp] theorem foreground_withLanguage (m : Metadata) (language : LanguageId) :
    (m.withLanguage language).foreground = m.foreground :=
  field_withLanguage m language 64 512

@[simp] theorem background_withLanguage (m : Metadata) (language : LanguageId) :
    (m.withLanguage language).background = m.background :=
  field_withLanguage m language 32768 512

@[simp] theorem kind_withLanguage (m : Metadata) (language : LanguageId) :
    (m.withLanguage language).kind = m.kind :=
  congrArg TokenKind.ofCode (field_withLanguage m language 1 8)

@[simp] theorem fontStyle_withLanguage (m : Metadata) (language : LanguageId) :
    (m.withLanguage language).fontStyle = m.fontStyle := by
  rw [Metadata.fontStyle, Metadata.fontStyle]
  exact congrArg _ (congrArg _ (field_withLanguage m language 8 8))

end Metadata

end Highlight
