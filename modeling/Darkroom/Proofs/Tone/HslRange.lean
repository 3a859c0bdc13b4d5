import Darkroom.Proofs.Numeric.Grid
import Darkroom.Proofs.Tone.StepValues

/-!
# Hue, Saturation and Lightness in Range

Any intensities between zero and one have a hue, a saturation and a lightness in their ranges, and
nothing is divided by zero on the way.

Bytes are far apart, and the distance keeps every quotient from straying. Here the intensities are
any numbers with 24 bits, so two of them may differ by as little as the least number there is, near
black as well as near white. What carries the argument then is that rounding keeps the order. The
spread is rounded from a number that is at most the one that its divisor is rounded from, so their
quotient is at most one. And the spread of a colour that is not grey is at least the least number,
while no divisor reaches two, so the quotient is more than half of the least number and does not
vanish.

## Main definitions

* `Rgb.room`: What the spread is divided by.
* `Rgb.divisors`: Everything that is divided by.
* `Rgb.IsGrey`: The three intensities are one.

## Theorems

* `HasLevels.exists_room`: The divisor of the spread is not less than the spread.
* `HasLevels.exists_saturation`: The saturation is a share, and zero for greys only.
* `HasShares.exists_sector`: The place on the circle is not below zero.
* `Rgb.toHsl_in_range`: All of this together.
-/

namespace Darkroom

open Binary

namespace Rgb

/-- The greatest spread that the lightness allows: what the spread is divided by. -/
def room (c : Rgb) : Single :=
  if half < c.lightness then 2 - c.greatest - c.least else c.greatest + c.least

theorem saturation_eq (c : Rgb) :
    c.saturation = if c.isChromatic then c.spread / c.room else 0 := rfl

/-- What is divided by on the way to hue, saturation and lightness: always two, and for a colour
    that is not grey also its spread, the room of its spread, and the six sectors. -/
def divisors (c : Rgb) : List Single := 2 :: if c.isChromatic then [c.spread, c.room, 6] else []

/-- The three intensities are one number. -/
def IsGrey (c : Rgb) : Prop := c.red.equal c.green = true ∧ c.green.equal c.blue = true

/-- The greatest and the least intensity of a colour, between zero and one. -/
structure HasLevels (c : Rgb) (top bottom : ℚ) : Prop where
  greatest : c.greatest.Denotes top
  least : c.least.Denotes bottom
  least_nonneg : 0 ≤ bottom
  least_le_greatest : bottom ≤ top
  greatest_le_one : top ≤ 1

namespace HasLevels

variable {c : Rgb} {top bottom : ℚ} (h : c.HasLevels top bottom)
include h

theorem denotes_spread : c.spread.Denotes (binary32.round (top - bottom)) := by
  have hm := h.least_nonneg
  have hle := h.least_le_greatest
  have hM := h.greatest_le_one
  exact h.greatest.sub h.least (round_unit (by linarith) (by linarith)).2.2.2

/-- A colour is grey when its greatest and its least intensity are one. -/
theorem isChromatic_iff : c.isChromatic = true ↔ bottom < top := by
  rw [isChromatic, decide_eq_true_iff, denotes_ofNat_zero.lt_iff h.denotes_spread]
  refine ⟨fun hpos => ?_, fun hlt =>
    BinaryFormat.round_sub_pos h.greatest.representable h.least.representable hlt⟩
  refine lt_of_le_of_ne h.least_le_greatest fun heq => ?_
  rw [heq, sub_self, BinaryFormat.round_zero] at hpos
  exact lt_irrefl 0 hpos

theorem total_bounds : 0 ≤ binary32.round (top + bottom) ∧ binary32.round (top + bottom) ≤ 2 := by
  have hm := h.least_nonneg
  have hle := h.least_le_greatest
  have hM := h.greatest_le_one
  exact ⟨BinaryFormat.le_round_of_le BinaryFormat.representable_zero (by linarith),
    BinaryFormat.round_le_of_le denotes_two.representable (by linarith)⟩

theorem denotes_total : (c.greatest + c.least).Denotes (binary32.round (top + bottom)) := by
  have hm := h.least_nonneg
  have hle := h.least_le_greatest
  have hM := h.greatest_le_one
  refine h.greatest.add h.least (abs_round_le_greatest 1 (by norm_num) ?_)
  rw [abs_of_nonneg (by linarith)]
  linarith

theorem denotes_lightness :
    c.lightness.Denotes (binary32.round (binary32.round (top + bottom) / 2)) := by
  have htotal := h.total_bounds
  exact h.denotes_total.div denotes_two (by norm_num)
    (round_unit (by linarith [htotal.1]) (by linarith [htotal.2])).2.2.2

/-- Above one half in lightness, the greatest intensity is above one half. -/
theorem half_lt_greatest (hbright : half < c.lightness) : 1 / 2 < top := by
  rw [denotes_half.lt_iff h.denotes_lightness] at hbright
  by_contra hdark
  have hsum : top + bottom ≤ 1 := by linarith [h.least_le_greatest, not_lt.mp hdark]
  have htotal := BinaryFormat.round_le_of_le denotes_one.representable hsum
  have hmean := BinaryFormat.round_le_of_le denotes_half.representable
    (show binary32.round (top + bottom) / 2 ≤ 1 / 2 by linarith)
  exact not_lt.mpr hmean hbright

/-- Up to one half in lightness, the greatest and the least intensity make three halves at most. -/
theorem total_le (hdark : ¬half < c.lightness) : binary32.round (top + bottom) ≤ 3 / 2 := by
  rw [denotes_half.lt_iff h.denotes_lightness, not_lt] at hdark
  by_contra hbright
  have hr : binary32.Representable (3 / 4) := ⟨3, -2, by decide, by decide, by norm_num⟩
  have hmean := BinaryFormat.le_round_of_le hr
    (show 3 / 4 ≤ binary32.round (top + bottom) / 2 by linarith [not_le.mp hbright])
  linarith

/-- The divisor of the spread is not less than the spread, and less than two. In bright colours it
    is what the greatest intensity leaves to two, less the least one, in dark colours the sum. -/
theorem exists_room :
    ∃ w, c.room.Denotes w ∧ binary32.round (top - bottom) ≤ w ∧ w ≤ 3 / 2 := by
  have hm := h.least_nonneg
  have hle := h.least_le_greatest
  have hM := h.greatest_le_one
  rw [room]
  split_ifs with hlight
  · have hgreat := h.half_lt_greatest hlight
    have hr : binary32.Representable (3 / 2) := ⟨3, -1, by decide, by decide, by norm_num⟩
    have hlow := BinaryFormat.le_round_of_le denotes_one.representable
      (show 1 ≤ 2 - top by linarith)
    have hhigh := BinaryFormat.round_le_of_le hr (show 2 - top ≤ 3 / 2 by linarith)
    have hfirst := denotes_two.sub h.greatest (abs_round_le_greatest 1 (by norm_num)
      (abs_le.mpr ⟨by linarith, by linarith⟩))
    have hsecond := hfirst.sub h.least (abs_round_le_greatest 1 (by norm_num)
      (abs_le.mpr ⟨by linarith, by linarith⟩))
    exact ⟨_, hsecond, BinaryFormat.round_mono (by linarith),
      BinaryFormat.round_le_of_le hr (by linarith)⟩
  · exact ⟨_, h.denotes_total, BinaryFormat.round_mono (by linarith), h.total_le hlight⟩

/-- The saturation is a share. That of a colour does not vanish: the spread has at least one least
    place, and the divisor is less than two. -/
theorem exists_saturation :
    ∃ s, c.saturation.Denotes s ∧ 0 ≤ s ∧ s ≤ 1 ∧ (s = 0 ↔ top = bottom) := by
  rw [saturation_eq]
  by_cases hlt : bottom < top
  · rw [if_pos (h.isChromatic_iff.mpr hlt)]
    rcases h.exists_room with ⟨w, hw, hwide, hsmall⟩
    have hspread := BinaryFormat.round_sub_pos h.greatest.representable h.least.representable hlt
    have hleast := h.denotes_spread.representable.two_zpow_le hspread
    have hpos : 0 < w := hspread.trans_le hwide
    have hshare : binary32.round (top - bottom) / w ≤ 1 := (div_le_one hpos).mpr hwide
    have hquotient := h.denotes_spread.div hw hpos.ne'
      (round_unit (div_pos hspread hpos).le hshare).2.2.2
    have hkept : 0 < binary32.round (binary32.round (top - bottom) / w) := by
      refine BinaryFormat.round_pos ?_
      rw [← mul_div_assoc, lt_div_iff₀ hpos]
      linarith [mul_le_mul_of_nonneg_left hsmall (two_zpow_pos binary32.minExponent).le]
    exact ⟨_, hquotient, hkept.le, BinaryFormat.round_le_of_le denotes_one.representable hshare,
      iff_of_false hkept.ne' hlt.ne'⟩
  · rw [if_neg (mt h.isChromatic_iff.mp hlt)]
    exact ⟨0, denotes_ofNat_zero, le_rfl, zero_le_one,
      iff_of_true rfl (le_antisymm (not_lt.mp hlt) h.least_le_greatest)⟩

/-- Everything that is divided by is positive. -/
theorem divisors_pos : ∀ d ∈ c.divisors, 0 < d := by
  have htwo : (0 : Single) < 2 := (denotes_ofNat_zero.lt_iff denotes_two).mpr (by norm_num)
  rw [divisors]
  intro d hd
  rcases List.mem_cons.mp hd with rfl | hd
  · exact htwo
  split_ifs at hd with hchromatic
  · have hlt := h.isChromatic_iff.mp hchromatic
    rcases h.exists_room with ⟨w, hw, hwide, -⟩
    have hspread := BinaryFormat.round_sub_pos h.greatest.representable h.least.representable hlt
    simp only [List.mem_cons, List.not_mem_nil, or_false] at hd
    rcases hd with rfl | rfl | rfl
    · exact (denotes_ofNat_zero.lt_iff h.denotes_spread).mpr hspread
    · exact (denotes_ofNat_zero.lt_iff hw).mpr (hspread.trans_le hwide)
    · exact (denotes_ofNat_zero.lt_iff denotes_six).mpr (by norm_num)
  · cases hd

/-- The distance of two intensities, as a part of the spread, lies between minus one and one. -/
theorem exists_arc (hlt : bottom < top) {x y : Single} {p q : ℚ} (hx : x.Denotes p)
    (hy : y.Denotes q) (hp : bottom ≤ p ∧ p ≤ top) (hq : bottom ≤ q ∧ q ≤ top) :
    ∃ a, ((x - y) / c.spread).Denotes a ∧ -1 ≤ a ∧ a ≤ 1 ∧ (q ≤ p → 0 ≤ a) := by
  have hspread := BinaryFormat.round_sub_pos h.greatest.representable h.least.representable hlt
  have hsize : |p - q| ≤ 2 ^ 0 := by
    rw [pow_zero]
    exact abs_le.mpr ⟨by linarith [h.least_nonneg, h.greatest_le_one],
      by linarith [h.least_nonneg, h.greatest_le_one]⟩
  have hdistance := hx.sub hy (abs_round_le_greatest 0 (by norm_num) hsize)
  -- Both the distance and the spread are rounded, in the same order as before.
  have hhigh := BinaryFormat.round_mono (f := binary32) (show p - q ≤ top - bottom by linarith)
  have hlow := BinaryFormat.round_mono (f := binary32) (show -(top - bottom) ≤ p - q by linarith)
  rw [BinaryFormat.round_neg] at hlow
  have hshare : |binary32.round (p - q) / binary32.round (top - bottom)| ≤ 1 := by
    rw [abs_div, abs_of_pos hspread, div_le_one hspread]
    exact abs_le.mpr ⟨hlow, hhigh⟩
  have hquotient := hdistance.div h.denotes_spread hspread.ne'
    (abs_round_le_greatest 0 (by norm_num) (by rwa [pow_zero]))
  rcases abs_le.mp (BinaryFormat.abs_round_le denotes_one.representable hshare) with ⟨h0, h1⟩
  refine ⟨_, hquotient, h0, h1, fun hle => ?_⟩
  have hnonneg := BinaryFormat.le_round_of_le (f := binary32) BinaryFormat.representable_zero
    (sub_nonneg.mpr hle)
  exact BinaryFormat.le_round_of_le BinaryFormat.representable_zero
    (div_nonneg hnonneg hspread.le)

end HasLevels

/-- A place on the circle that has been moved by whole sectors. -/
theorem exists_add_sectors {x : Single} {a : ℚ} (hx : x.Denotes a) (n : ℕ) (hn : n ≤ 6)
    (h0 : 0 ≤ a + n) (h1 : a ≤ 1) :
    ∃ s, (x + OfNat.ofNat n).Denotes s ∧ 0 ≤ s ∧ s ≤ 8 := by
  have hn6 : (n : ℚ) ≤ 6 := by exact_mod_cast hn
  have hsum := hx.add (denotes_whole n (hn.trans (by norm_num)))
    (abs_round_le_greatest 3 (by norm_num) (by rw [abs_of_nonneg h0]; linarith))
  have height : (8 : Single).Denotes 8 := by exact_mod_cast denotes_whole 8 (by norm_num)
  exact ⟨_, hsum, BinaryFormat.le_round_of_le BinaryFormat.representable_zero h0,
    BinaryFormat.round_le_of_le height.representable (by linarith)⟩

/-- The values of three intensities between zero and one. -/
structure HasShares (c : Rgb) (r g b : ℚ) : Prop where
  red : c.red.Denotes r
  green : c.green.Denotes g
  blue : c.blue.Denotes b
  red_share : IsShare r
  green_share : IsShare g
  blue_share : IsShare b

theorem exists_hasShares {c : Rgb} (h : ∀ x ∈ [c.red, c.green, c.blue], 0 ≤ x ∧ x ≤ 1) :
    ∃ r g b, c.HasShares r g b := by
  have hunit (x : Single) (hx : x ∈ [c.red, c.green, c.blue]) : ∃ s, x.Denotes s ∧ IsShare s :=
    exists_isShare (h x hx).1 (h x hx).2
  rcases hunit c.red (by simp) with ⟨r, hr, hrs⟩
  rcases hunit c.green (by simp) with ⟨g, hg, hgs⟩
  rcases hunit c.blue (by simp) with ⟨b, hb, hbs⟩
  exact ⟨r, g, b, hr, hg, hb, hrs, hgs, hbs⟩

namespace HasShares

variable {c : Rgb} {r g b : ℚ} (h : c.HasShares r g b)
include h

theorem levels : c.HasLevels (max (max r g) b) (min (min r g) b) where
  greatest := (h.red.maximum h.green).maximum h.blue
  least := (h.red.minimum h.green).minimum h.blue
  least_nonneg := le_min (le_min h.red_share.nonneg h.green_share.nonneg) h.blue_share.nonneg
  least_le_greatest := (min_le_right _ b).trans (le_max_right _ b)
  greatest_le_one := max_le (max_le h.red_share.le_one h.green_share.le_one) h.blue_share.le_one

/-- The greatest and the least intensity are one exactly when all three are. -/
theorem isGrey_iff : c.IsGrey ↔ max (max r g) b = min (min r g) b := by
  rw [IsGrey, h.red.equal_iff h.green, h.green.equal_iff h.blue]
  constructor
  · rintro ⟨rfl, rfl⟩
    simp only [max_self, min_self]
  · intro heq
    have hr : min (min r g) b ≤ r ∧ r ≤ max (max r g) b := by simp
    have hg : min (min r g) b ≤ g ∧ g ≤ max (max r g) b := by simp
    have hb : min (min r g) b ≤ b ∧ b ≤ max (max r g) b := by simp
    rw [heq] at hr hg hb
    exact ⟨(le_antisymm hr.2 hr.1).trans (le_antisymm hg.2 hg.1).symm,
      (le_antisymm hg.2 hg.1).trans (le_antisymm hb.2 hb.1).symm⟩

/-- The place of a colour on the circle is not below zero. Only the sector of red begins there, and
    it gets a whole turn more where green is less than blue. -/
theorem exists_sector (hlt : min (min r g) b < max (max r g) b) :
    ∃ s, c.sector.Denotes s ∧ 0 ≤ s ∧ s ≤ 8 := by
  have hr : min (min r g) b ≤ r ∧ r ≤ max (max r g) b := by simp
  have hg : min (min r g) b ≤ g ∧ g ≤ max (max r g) b := by simp
  have hb : min (min r g) b ≤ b ∧ b ≤ max (max r g) b := by simp
  rw [sector]
  split_ifs with hred hgb hgreen
  · rcases h.levels.exists_arc hlt h.green h.blue hg hb with ⟨a, ha, hlow, hhigh, -⟩
    exact exists_add_sectors ha 6 le_rfl (by push_cast; linarith) hhigh
  · rw [h.green.lt_iff h.blue, not_lt] at hgb
    rcases h.levels.exists_arc hlt h.green h.blue hg hb with ⟨a, ha, -, hhigh, hpos⟩
    exact exists_add_sectors ha 0 (by norm_num) (by push_cast; linarith [hpos hgb]) hhigh
  · rcases h.levels.exists_arc hlt h.blue h.red hb hr with ⟨a, ha, hlow, hhigh, -⟩
    exact exists_add_sectors ha 2 (by norm_num) (by push_cast; linarith) hhigh
  · rcases h.levels.exists_arc hlt h.red h.green hr hg with ⟨a, ha, hlow, hhigh, -⟩
    exact exists_add_sectors ha 4 (by norm_num) (by push_cast; linarith) hhigh

/-- The hue is below one, whatever the rounding has made of the place: the remainder by one is
    exact. Greys have none. -/
theorem exists_hue : ∃ t, c.hue.Denotes t ∧ 0 ≤ t ∧ t < 1 ∧ (c.IsGrey → t = 0) := by
  rw [hue]
  by_cases hlt : min (min r g) b < max (max r g) b
  · rw [if_pos (h.levels.isChromatic_iff.mpr hlt)]
    rcases h.exists_sector hlt with ⟨s, hs, h0, h8⟩
    have hturn := hs.div denotes_six (by norm_num) (abs_round_le_greatest 1 (by norm_num)
      (by rw [abs_of_nonneg (by linarith)]; linarith))
    have hnonneg := BinaryFormat.le_round_of_le (f := binary32) BinaryFormat.representable_zero
      (show 0 ≤ s / 6 by linarith)
    exact ⟨_, hturn.modulo_one hnonneg denotes_one, Int.fract_nonneg _, Int.fract_lt_one _,
      fun hgrey => absurd (h.isGrey_iff.mp hgrey) hlt.ne'⟩
  · rw [if_neg (mt h.levels.isChromatic_iff.mp hlt)]
    exact ⟨0, denotes_ofNat_zero, le_rfl, zero_lt_one, fun _ => rfl⟩

end HasShares

/-- A colour of three intensities between zero and one is converted without a division by zero. Its
    hue is at least zero and below one, its saturation and its lightness lie between zero and one,
    and the saturation is zero exactly for greys, whose hue is zero too. -/
theorem toHsl_in_range (c : Rgb) (h : ∀ x ∈ [c.red, c.green, c.blue], 0 ≤ x ∧ x ≤ 1) :
    (∀ d ∈ c.divisors, 0 < d) ∧
      (0 ≤ c.toHsl.hue ∧ c.toHsl.hue < 1) ∧
      (0 ≤ c.toHsl.saturation ∧ c.toHsl.saturation ≤ 1) ∧
      (0 ≤ c.toHsl.lightness ∧ c.toHsl.lightness ≤ 1) ∧
      (c.toHsl.saturation.isZero = true ↔ c.IsGrey) ∧
      (c.IsGrey → c.toHsl.hue.isZero = true) := by
  rcases exists_hasShares h with ⟨r, g, b, hshares⟩
  rcases hshares.exists_hue with ⟨t, ht, ht0, ht1, hgrey⟩
  rcases hshares.levels.exists_saturation with ⟨s, hs, hs0, hs1, hszero⟩
  have hlight := hshares.levels.denotes_lightness
  have htotal := hshares.levels.total_bounds
  rcases round_unit (v := binary32.round (max (max r g) b + min (min r g) b) / 2)
    (by linarith [htotal.1]) (by linarith [htotal.2]) with ⟨hl0, hl1, -⟩
  refine ⟨hshares.levels.divisors_pos, ⟨?_, ?_⟩, ⟨?_, ?_⟩, ⟨?_, ?_⟩, ?_, fun hg => ?_⟩
  · exact (denotes_ofNat_zero.le_iff ht).mpr ht0
  · exact (ht.lt_iff denotes_one).mpr ht1
  · exact (denotes_ofNat_zero.le_iff hs).mpr hs0
  · exact (hs.le_iff denotes_one).mpr hs1
  · exact (denotes_ofNat_zero.le_iff hlight).mpr hl0
  · exact (hlight.le_iff denotes_one).mpr hl1
  · rw [hshares.isGrey_iff, ← hszero]
    exact hs.isZero_iff
  · exact ht.isZero_iff.mpr (hgrey hg)

/-- The least number and twice the least number beside black: the saturation does not vanish, and
    the hue is that of the sector of green. -/
theorem toHsl_in_range_nearBlack :
    let c : Rgb := ⟨ofBits 1, ofBits 2, 0⟩
    (∀ x ∈ [c.red, c.green, c.blue], 0 ≤ x ∧ x ≤ 1) ∧ 0 < c.room ∧ c.toHsl.hue < 1 ∧
      ¬c.toHsl.saturation.isZero = true := by
  have hunit : ∀ x ∈ [(ofBits 1 : Single), ofBits 2, 0], 0 ≤ x ∧ x ≤ 1 := by decide
  have hrange := toHsl_in_range ⟨ofBits 1, ofBits 2, 0⟩ hunit
  refine ⟨hunit, hrange.1 _ (by decide), hrange.2.1.2, fun hzero => ?_⟩
  have hgrey := (hrange.2.2.2.2.1.mp hzero).1
  revert hgrey
  decide

end Rgb

end Darkroom
