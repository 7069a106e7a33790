import Highlight.Value.Resolve
import Mathlib.Tactic.SplitIfs

/-!
# Channels and opacity of derived colors

The channels of a derived color come from the channels of the colors it is derived from, also where
luminances are compared to decide which way a color is moved. Its opacity comes from that of the
first color alone.
-/

namespace Highlight.Color

/-- Red, green and blue. -/
def channels (c : Color) : UInt8 × UInt8 × UInt8 := (c.red, c.green, c.blue)

theorem channels_eq_iff {c d : Color} :
    c.channels = d.channels ↔ ∃ alpha, d = { c with alpha := alpha } := by
  constructor
  · intro h
    obtain ⟨hred, hgreen, hblue⟩ : c.red = d.red ∧ c.green = d.green ∧ c.blue = d.blue := by
      simpa [channels] using h
    exact ⟨d.alpha, by simp only [hred, hgreen, hblue]⟩
  · rintro ⟨alpha, rfl⟩
    rfl

theorem luminance_congr {c d : Color} (h : c.channels = d.channels) :
    c.luminance = d.luminance := by
  obtain ⟨alpha, rfl⟩ := channels_eq_iff.mp h
  rfl

theorem isLighterThan_congr {c d target other : Color} (h : c.channels = d.channels)
    (htarget : target.channels = other.channels) :
    c.isLighterThan target = d.isLighterThan other := by
  rw [isLighterThan, isLighterThan, luminance_congr h, luminance_congr htarget]

theorem isDarkerThan_congr {c d target other : Color} (h : c.channels = d.channels)
    (htarget : target.channels = other.channels) :
    c.isDarkerThan target = d.isDarkerThan other := by
  rw [isDarkerThan, isDarkerThan, luminance_congr h, luminance_congr htarget]

theorem channels_withLightness {c d : Color} (h : c.channels = d.channels)
    (change : Float → Float) :
    (c.withLightness change).channels = (d.withLightness change).channels := by
  obtain ⟨alpha, rfl⟩ := channels_eq_iff.mp h
  rfl

@[simp] theorem channels_transparent (c : Color) (factor : Float) :
    (c.transparent factor).channels = c.channels := rfl

theorem channels_lightenTowards {c d target other : Color} (h : c.channels = d.channels)
    (htarget : target.channels = other.channels) (factor : Float) :
    (c.lightenTowards target factor).channels = (d.lightenTowards other factor).channels := by
  simp only [lightenTowards, isLighterThan_congr h htarget, luminance_congr h,
    luminance_congr htarget]
  split_ifs
  · exact h
  · exact h
  · exact channels_withLightness h _

theorem channels_darkenTowards {c d target other : Color} (h : c.channels = d.channels)
    (htarget : target.channels = other.channels) (factor : Float) :
    (c.darkenTowards target factor).channels = (d.darkenTowards other factor).channels := by
  simp only [darkenTowards, isDarkerThan_congr h htarget, luminance_congr h,
    luminance_congr htarget]
  split_ifs
  · exact h
  · exact h
  · exact channels_withLightness h _

/-- Moving towards a background compares luminances, and these are a matter of the channels. -/
theorem channels_lessProminent_some {c d background other : Color} (h : c.channels = d.channels)
    (hbackground : background.channels = other.channels) (factor : Float) {t u : Float} :
    (c.lessProminent (some background) factor t).channels =
      (d.lessProminent (some other) factor u).channels := by
  simp only [lessProminent, channels_transparent, isDarkerThan_congr h hbackground]
  split_ifs
  · exact channels_lightenTowards h hbackground factor
  · exact channels_darkenTowards h hbackground factor

@[simp] theorem alpha_withLightness (c : Color) (change : Float → Float) :
    (c.withLightness change).alpha = c.alpha := rfl

@[simp] theorem alpha_darken (c : Color) (factor : Float) : (c.darken factor).alpha = c.alpha :=
  rfl

@[simp] theorem alpha_lighten (c : Color) (factor : Float) : (c.lighten factor).alpha = c.alpha :=
  rfl

theorem alpha_transparent_congr {c d : Color} (h : c.alpha = d.alpha) (factor : Float) :
    (c.transparent factor).alpha = (d.transparent factor).alpha := by
  simp only [transparent, h]

@[simp] theorem alpha_lightenTowards (c target : Color) (factor : Float) :
    (c.lightenTowards target factor).alpha = c.alpha := by
  simp only [lightenTowards]
  split
  · rfl
  · split <;> rfl

@[simp] theorem alpha_darkenTowards (c target : Color) (factor : Float) :
    (c.darkenTowards target factor).alpha = c.alpha := by
  simp only [darkenTowards]
  split
  · rfl
  · split <;> rfl

/-- Whatever the background is, moving towards it leaves the opacity alone. -/
theorem alpha_lessProminent_some (c background : Color) (factor transparency : Float) :
    (c.lessProminent (some background) factor transparency).alpha =
      (c.transparent transparency).alpha := by
  refine alpha_transparent_congr ?_ transparency
  split
  · exact alpha_lightenTowards c background factor
  · exact alpha_darkenTowards c background factor

end Highlight.Color
