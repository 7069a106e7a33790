import Highlight.Proofs.Color.Spellings

/-!
# Every color has a canonical spelling

A color has many spellings: any number of signs in front, letters of either case, alpha spelled out
or left out, and one digit for two equal ones. The canonical spelling is one of them, so that a
color is read back from it.

Reading cuts a text into components by its length alone and then goes by their values
(`ofHexBody_of_values`), and neither depends on the case of letters (`components?_map`,
`componentValue?_map_toUpper`). So it is enough to know the components of the upper-case digits.
-/

namespace Highlight.Color

/-! ### Spellings -/

/-- Two digits for every channel, opaque or not. -/
def wideBody (c : Color) : List Char :=
  hexPair c.red ++ hexPair c.green ++ hexPair c.blue ++ hexPair c.alpha

/-- The digit that stands for a channel of two equal digits. -/
def shortDigit (channel : UInt8) : Char := Text.hexDigit (channel.toNat / 17)

/-- One digit for every channel but alpha. -/
def shortBody (c : Color) : List Char := [shortDigit c.red, shortDigit c.green, shortDigit c.blue]

/-- Every channel has two equal digits. -/
def IsDoubled (c : Color) : Prop :=
  ∀ channel ∈ [c.red, c.green, c.blue, c.alpha], 17 ∣ channel.toNat

/-- The digits that spell a color, up to the case of letters. -/
inductive IsSpelledBy (c : Color) : List Char → Prop where
  /-- The digits of the canonical spelling. -/
  | canonical {digits : List Char} (h : c.toHex.toList = '#' :: digits) : IsSpelledBy c digits
  /-- Eight digits, with alpha spelled out. -/
  | wide : IsSpelledBy c c.wideBody
  /-- Three digits for an opaque color. -/
  | short (hdoubled : c.IsDoubled) (hfull : c.alpha = 255) : IsSpelledBy c c.shortBody
  /-- Four digits. -/
  | shortWithAlpha (hdoubled : c.IsDoubled) :
      IsSpelledBy c (c.shortBody ++ [shortDigit c.alpha])

/-! ### Reading goes by values -/

/-- The text is cut into components which have values, and the values make up the color. -/
def Composes (body : List Char) (c : Color) : Prop :=
  ∃ (parts : List (List Char)) (factor : Nat) (values : List Nat),
    components? body = some (parts, factor) ∧
    parts.map componentValue? = values.map some ∧
    ofChannels (values.map fun value => (value * factor).toUInt8) = c

variable {c : Color} {body : List Char}

theorem mapM_channel_of_values (factor : Nat) {parts : List (List Char)} {values : List Nat}
    (hvalues : parts.map componentValue? = values.map some) :
    parts.mapM (channel factor) = .ok (values.map fun value => (value * factor).toUInt8) := by
  induction parts generalizing values with
  | nil =>
      obtain rfl := List.map_eq_nil_iff.mp hvalues.symm
      rfl
  | cons part parts ih =>
      obtain ⟨value, rest, rfl, hvalue, hrest⟩ := List.map_eq_cons_iff.mp hvalues.symm
      have hhead : channel factor part = .ok (value * factor).toUInt8 := by
        rw [channel, ← hvalue]
      rw [List.mapM_cons, hhead, ih hrest.symm]
      rfl

theorem Composes.isReadable (h : Composes body c) : IsReadable body := by
  obtain ⟨parts, factor, values, hcut, hvalues, -⟩ := h
  have hchannels := mapM_channel_of_values factor hvalues
  exact ⟨parts, factor, hcut, (exists_mapM_channel_iff factor).mp ⟨_, hchannels⟩⟩

/-- A text whose components have values is read as the color of these values. -/
theorem Composes.ofHexBody (h : Composes body c) : ofHexBody body = .ok c := by
  have hreadable := h.isReadable
  obtain ⟨parts, factor, values, hcut, hvalues, rfl⟩ := h
  have hwhite : body ≠ "white".toList := by
    rintro rfl
    exact nomatch hcut
  have hblack : body ≠ "black".toList := by
    rintro rfl
    exact nomatch hcut
  have hascii : ¬ (body.any fun c => 128 ≤ c.toNat) = true := by
    simpa using hreadable.toNat_lt
  rw [Color.ofHexBody, if_neg hwhite, if_neg hblack, if_neg hascii, hcut]
  simp only [mapM_channel_of_values factor hvalues]
  rfl

/-- No sign in the text is dropped. -/
theorem Composes.not_mem_sign (h : Composes body c) : '#' ∉ body := by
  have hsign : ¬ IsHexDigit '#' := by decide
  have hother : '#' ≠ '+' := by decide
  intro hmem
  rcases isReadable_iff.mp h.isReadable with ⟨-, hdigits⟩ | hpaired
  · exact hsign (hdigits '#' hmem)
  · obtain ⟨i, hi⟩ := List.getElem?_of_mem hmem
    rcases hpaired.2 ('#', i) (List.mem_zipIdx_iff_getElem?.mpr hi) with hdigit | ⟨hplus, -⟩
    · exact hsign hdigit
    · exact hother hplus

theorem withoutSigns_append {text : List Char} (htext : '#' ∉ text) (n : Nat) :
    withoutSigns (String.ofList (List.replicate n '#' ++ text)) = text := by
  have hfirst : text.dropWhile (· == '#') = text := by
    cases text with
    | nil => rfl
    | cons c text =>
        have hc : c ≠ '#' := fun h => htext (h ▸ List.mem_cons_self)
        simp [hc]
  simp [withoutSigns, hfirst]

/-- Signs in front do not matter. -/
theorem Composes.parse (h : Composes body c) (n : Nat) :
    parse (String.ofList (List.replicate n '#' ++ body)) = .ok c := by
  have hread : ofHex (String.ofList (List.replicate n '#' ++ body)) = .ok c :=
    (congrArg Color.ofHexBody (withoutSigns_append h.not_mem_sign n)).trans h.ofHexBody
  rw [Color.parse, hread]
  rfl

/-! ### Letters of either case -/

/-- Texts are cut by their length. -/
theorem components?_map (f : Char → Char) (body : List Char) :
    components? (body.map f) =
      (components? body).map fun (parts, factor) => (parts.map (List.map f), factor) := by
  match body with
  | [] | [_] | [_, _] | [_, _, _] | [_, _, _, _] | [_, _, _, _, _] => rfl
  | [_, _, _, _, _, _] | [_, _, _, _, _, _, _] | [_, _, _, _, _, _, _, _] => rfl
  | _ :: _ :: _ :: _ :: _ :: _ :: _ :: _ :: _ :: _ => rfl

theorem toNat_toUpper (c : Char) :
    c.toUpper.toNat = if 97 ≤ c.toNat ∧ c.toNat ≤ 122 then c.toNat - 32 else c.toNat := by
  have hlower : ('a'.val ≤ c.val ∧ c.val ≤ 'z'.val) ↔ 97 ≤ c.toNat ∧ c.toNat ≤ 122 := by
    rw [UInt32.le_iff_toNat_le, UInt32.le_iff_toNat_le]
    rfl
  split_ifs with hc
  · -- adding the distance to the upper-case letters wraps around
    have hdistance : ('A'.val - 'a'.val).toNat = 4294967264 := rfl
    obtain ⟨hvalid, hupper⟩ : ∃ h, c.toUpper = ⟨c.val + ('A'.val - 'a'.val), h⟩ :=
      ⟨_, dif_pos (hlower.mpr hc)⟩
    rw [hupper, ← Char.toNat_val, UInt32.toNat_add, hdistance, Char.toNat_val]
    omega
  · have hsame : c.toUpper = c := dif_neg (mt hlower.mp hc)
    rw [hsame]

theorem hexValue?_toUpper (c : Char) : Text.hexValue? c.toUpper = Text.hexValue? c := by
  have h0 : '0'.toNat = 48 := rfl
  have h9 : '9'.toNat = 57 := rfl
  have ha : 'a'.toNat = 97 := rfl
  have hf : 'f'.toNat = 102 := rfl
  have hA : 'A'.toNat = 65 := rfl
  have hF : 'F'.toNat = 70 := rfl
  have hupper := toNat_toUpper c
  simp only [Text.hexValue?, Char.le_def, UInt32.le_iff_toNat_le, Char.toNat_val]
  grind

theorem toUpper_eq_plus_iff {c : Char} : c.toUpper = '+' ↔ c = '+' := by
  have hplus : '+'.toNat = 43 := rfl
  rw [← Char.toNat_inj, ← Char.toNat_inj, hplus, toNat_toUpper]
  grind

theorem componentValue?_map_toUpper (part : List Char) :
    componentValue? (part.map Char.toUpper) = componentValue? part := by
  match part with
  | [] | _ :: _ :: _ :: _ => rfl
  | [d] => exact hexValue?_toUpper d
  | [s, d] =>
      simp only [List.map_cons, List.map_nil, componentValue?, hexValue?_toUpper,
        toUpper_eq_plus_iff]

theorem map_componentValue?_toUpper (parts : List (List Char)) :
    (parts.map (List.map Char.toUpper)).map componentValue? = parts.map componentValue? := by
  rw [List.map_map]
  exact List.map_congr_left fun part _ => componentValue?_map_toUpper part

/-- A text makes up the color that it makes up in upper case. -/
theorem composes_map_toUpper : Composes (body.map Char.toUpper) c ↔ Composes body c := by
  constructor
  · rintro ⟨parts, factor, values, hcut, hvalues, hcolor⟩
    rw [components?_map] at hcut
    obtain ⟨⟨given, _⟩, hgiven, hupper⟩ := Option.map_eq_some_iff.mp hcut
    obtain ⟨rfl, rfl⟩ := Prod.mk.inj hupper
    rw [map_componentValue?_toUpper] at hvalues
    exact ⟨given, _, values, hgiven, hvalues, hcolor⟩
  · rintro ⟨parts, factor, values, hcut, hvalues, hcolor⟩
    refine ⟨parts.map (List.map Char.toUpper), factor, values, ?_, ?_, hcolor⟩
    · rw [components?_map, hcut]
      rfl
    · rw [map_componentValue?_toUpper, hvalues]

/-- Two texts that differ in the case of letters only make up the same color. -/
theorem Composes.of_toUpper {text : List Char} (h : Composes body c)
    (hcase : text.map Char.toUpper = body.map Char.toUpper) : Composes text c := by
  rw [← composes_map_toUpper, hcase, composes_map_toUpper]
  exact h

/-! ### Digits of a channel -/

theorem hexValue?_hexDigit {n : Nat} (hn : n < 16) :
    Text.hexValue? (Text.hexDigit n) = some n := by
  have hall : ∀ n < 16, Text.hexValue? (Text.hexDigit n) = some n := by decide
  exact hall n hn

theorem hexDigit_ne_plus {n : Nat} (hn : n < 16) : Text.hexDigit n ≠ '+' := by
  have hall : ∀ n < 16, Text.hexDigit n ≠ '+' := by decide
  exact hall n hn

theorem componentValue?_hexPair (channel : UInt8) :
    componentValue? (hexPair channel) = some channel.toNat := by
  have hlt := channel.toNat_lt
  have hhigh : channel.toNat / 16 < 16 := by omega
  have hlow : channel.toNat % 16 < 16 := by omega
  have hvalue : 16 * (channel.toNat / 16) + channel.toNat % 16 = channel.toNat := by omega
  simp only [hexPair, componentValue?, if_neg (hexDigit_ne_plus hhigh),
    hexValue?_hexDigit hhigh, hexValue?_hexDigit hlow, hvalue]

theorem componentValue?_shortDigit (channel : UInt8) :
    componentValue? [shortDigit channel] = some (channel.toNat / 17) := by
  have hlt := channel.toNat_lt
  exact hexValue?_hexDigit (by omega)

/-! ### Every spelling makes up its color -/

theorem composes_wideBody (c : Color) : Composes c.wideBody c := by
  refine ⟨[hexPair c.red, hexPair c.green, hexPair c.blue, hexPair c.alpha], 1,
    [c.red.toNat, c.green.toNat, c.blue.toNat, c.alpha.toNat], rfl, ?_, ?_⟩
  · simp only [List.map_cons, List.map_nil, componentValue?_hexPair]
  · simp [ofChannels]

/-- Alpha is left out only if it is what a missing component stands for. -/
theorem composes_hexBody (c : Color) : Composes c.hexBody c := by
  by_cases halpha : c.alpha < 255
  · have hbody : c.hexBody = c.wideBody := by rw [hexBody, if_pos halpha, wideBody]
    exact hbody ▸ composes_wideBody c
  · have hfull : c.alpha = 255 := by
      have hlt := c.alpha.toNat_lt
      rw [UInt8.lt_iff_toNat_lt] at halpha
      exact UInt8.toNat_inj.mp (by simp at halpha ⊢; omega)
    refine ⟨[hexPair c.red, hexPair c.green, hexPair c.blue], 1,
      [c.red.toNat, c.green.toNat, c.blue.toNat], ?_, ?_, ?_⟩
    · rw [hexBody, if_neg halpha]
      rfl
    · simp only [List.map_cons, List.map_nil, componentValue?_hexPair]
    · simp [ofChannels, rgb, ← hfull]

theorem mul_toUInt8_of_dvd {channel : UInt8} (h : 17 ∣ channel.toNat) :
    (channel.toNat / 17 * 17).toUInt8 = channel := by
  rw [Nat.div_mul_cancel h]
  simp

theorem IsSpelledBy.composes {digits : List Char} (h : c.IsSpelledBy digits) :
    Composes digits c := by
  cases h with
  | canonical h =>
      have hdigits : digits = c.hexBody := by
        have hboth : '#' :: c.hexBody = '#' :: digits := by rw [← h, toHex, String.toList_ofList]
        exact (List.cons.inj hboth).2.symm
      exact hdigits ▸ composes_hexBody c
  | wide => exact composes_wideBody c
  | short hdoubled hfull =>
      simp only [IsDoubled, List.forall_mem_cons] at hdoubled
      obtain ⟨hred, hgreen, hblue, -⟩ := hdoubled
      refine ⟨[[shortDigit c.red], [shortDigit c.green], [shortDigit c.blue]], 17,
        [c.red.toNat / 17, c.green.toNat / 17, c.blue.toNat / 17], rfl, ?_, ?_⟩
      · simp only [List.map_cons, List.map_nil, componentValue?_shortDigit]
      · simp only [List.map_cons, List.map_nil, mul_toUInt8_of_dvd, hred, hgreen, hblue,
          ofChannels, rgb, ← hfull]
  | shortWithAlpha hdoubled =>
      simp only [IsDoubled, List.forall_mem_cons] at hdoubled
      obtain ⟨hred, hgreen, hblue, halpha, -⟩ := hdoubled
      refine ⟨[[shortDigit c.red], [shortDigit c.green], [shortDigit c.blue],
          [shortDigit c.alpha]], 17,
        [c.red.toNat / 17, c.green.toNat / 17, c.blue.toNat / 17, c.alpha.toNat / 17], rfl, ?_, ?_⟩
      · simp only [List.map_cons, List.map_nil, componentValue?_shortDigit]
      · simp only [List.map_cons, List.map_nil, mul_toUInt8_of_dvd, hred, hgreen, hblue, halpha,
          ofChannels]

/-! ### The main result -/

/-- A color is read back from its canonical spelling. -/
theorem parse_canonical (c : Color) : parse c.toHex = .ok c :=
  (composes_hexBody c).parse 1

/-- **Every color is read back from each of its spellings**: from the digits of its canonical
spelling, from eight digits, and from three or four if its channels have two equal digits; behind
any number of signs, and with letters of either case. The canonical spelling of a color that was
read stands for this very color, and two texts that are colors have the same canonical spelling
exactly if they are the same color. -/
theorem parse_spellings (c : Color) :
    (∀ digits, c.IsSpelledBy digits →
        ∀ n text, text.map Char.toUpper = digits.map Char.toUpper →
          parse (String.ofList (List.replicate n '#' ++ text)) = .ok c) ∧
      ∀ s, parse s = .ok c →
        parse c.toHex = parse s ∧
          ∀ t d, parse t = .ok d → (c.toHex = d.toHex ↔ parse s = parse t) := by
  constructor
  · intro digits hdigits n text hcase
    exact (hdigits.composes.of_toUpper hcase).parse n
  · intro s hs
    refine ⟨by rw [parse_canonical, hs], fun t d ht => ?_⟩
    rw [hs, ht]
    constructor
    · intro hsame
      rw [← parse_canonical c, ← parse_canonical d, hsame]
    · intro hsame
      rw [Except.ok.inj hsame]

/-- Four spellings of one color, with and without signs and in mixed case, and a name. -/
theorem parse_spellings_mixed :
    let c : Color := rgb 170 187 255
    (c.IsSpelledBy "AABBFF".toList ∧ c.IsSpelledBy "AABBFFFF".toList ∧
        c.IsSpelledBy "ABF".toList ∧ c.IsSpelledBy "ABFF".toList) ∧
      (parse "##aaBbFf" = .ok c ∧ parse "AAbbffFF" = .ok c ∧ parse "#aBf" = .ok c ∧
        parse "###AbFf" = .ok c) ∧
      parse white.toHex = parse "white" ∧ white.toHex = "#FFFFFF" ∧
      (white.toHex = c.toHex ↔ parse "white" = parse "##aaBbFf") := by
  intro c
  have hdoubled : c.IsDoubled := by simp [IsDoubled, c, rgb]
  have hbody : c.hexBody = "AABBFF".toList := by decide
  have hwideBody : c.wideBody = "AABBFFFF".toList := by decide
  have hshortBody : c.shortBody = "ABF".toList := by decide
  have hwithAlpha : c.shortBody ++ [shortDigit c.alpha] = "ABFF".toList := by decide
  have hcanonical : c.IsSpelledBy "AABBFF".toList :=
    .canonical (by rw [← hbody, toHex, String.toList_ofList])
  have hwide : c.IsSpelledBy "AABBFFFF".toList := hwideBody ▸ .wide
  have hshort : c.IsSpelledBy "ABF".toList := hshortBody ▸ .short hdoubled rfl
  have hshortAlpha : c.IsSpelledBy "ABFF".toList := hwithAlpha ▸ .shortWithAlpha hdoubled
  have hread := (parse_spellings c).1
  have hmixed : parse "##aaBbFf" = .ok c := by
    simpa using hread _ hcanonical 2 "aaBbFf".toList (by decide)
  obtain ⟨hback, hsame⟩ := (parse_spellings white).2 "white" rfl
  refine ⟨⟨hcanonical, hwide, hshort, hshortAlpha⟩, ⟨hmixed, ?_, ?_, ?_⟩, hback, by decide,
    hsame _ c hmixed⟩
  · simpa using hread _ hwide 0 "AAbbffFF".toList (by decide)
  · simpa using hread _ hshort 1 "aBf".toList (by decide)
  · simpa using hread _ hshortAlpha 3 "AbFf".toList (by decide)

end Highlight.Color
