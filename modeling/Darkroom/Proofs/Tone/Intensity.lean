import Darkroom.Proofs.Tone.ByteShares
import Darkroom.Proofs.Tone.ColourCircle
import Darkroom.Tone.Hsl

/-!
# Intensities, Nearly Exact

The intensity of a channel, worked out in 24 bits, stays close to the wave of the colour circle.

The sectors of `Hsl.intensity` end at rounded constants, and a turn that leaves the circle is
brought back by an addition that rounds. So a turn can end up in the sector next to the one that its
exact place lies in. This does no harm because the wave is continuous: what a sector's formula gives
just beyond its end is close to what the next one gives there. Each sector is therefore compared
with the wave at the place that the rounded turn has, and that place with the exact one at the end.

## Main definitions

* `Hsl.wrapped`: A turn that has left the circle, brought back.
* `NearLevels`: The least and the greatest intensity of a colour, nearly exact.

## Theorems

* `wrapsNear`: A turn brought back has nearly the height of its exact place.
* `NearLevels.intensityWithin`: Each sector's formula is near the ramp.
* `NearLevels.intensity`: The intensity is near the wave at the exact place.
-/

namespace Darkroom

open Binary

namespace Hsl

/-- A turn that has left the circle on either side, brought back. -/
def wrapped (turn : Single) : Single :=
  let turn := if turn < 0 then turn + 1 else turn
  if 1 < turn then turn - 1 else turn

/-- The intensity of a turn on the circle. -/
def intensityWithin (low high turn : Single) : Single :=
  if turn < sixth then low + (high - low) * 6 * turn
  else if turn < half then high
  else if turn < twoThirds then low + (high - low) * (twoThirds - turn) * 6
  else low

theorem intensity_eq (low high turn : Single) :
    intensity low high turn = intensityWithin low high (wrapped turn) := rfl

section

variable {turn : Single} {t w : ℚ} (ht : turn.Denotes t)
include ht

theorem wrapped_of_neg (hneg : t < 0) (hsum : (turn + 1).Denotes w) (hw : w ≤ 1) :
    wrapped turn = turn + 1 := by
  rw [wrapped, if_pos ((ht.lt_iff denotes_ofNat_zero).mpr hneg)]
  exact if_neg fun h => not_lt.mpr hw ((denotes_one.lt_iff hsum).mp h)

theorem wrapped_of_one_lt (h : 1 < t) : wrapped turn = turn - 1 := by
  have hnonneg : 0 ≤ t := zero_le_one.trans h.le
  rw [wrapped, if_neg fun h => not_lt.mpr hnonneg ((ht.lt_iff denotes_ofNat_zero).mp h)]
  exact if_pos ((denotes_one.lt_iff ht).mpr h)

theorem wrapped_of_mem (h0 : 0 ≤ t) (h1 : t ≤ 1) : wrapped turn = turn := by
  rw [wrapped, if_neg fun h => not_lt.mpr h0 ((ht.lt_iff denotes_ofNat_zero).mp h)]
  exact if_neg fun h => not_lt.mpr h1 ((denotes_one.lt_iff ht).mp h)

end

end Hsl

/-- A turn and its wrapped form have nearly one height: the wave at the exact place, and one ramp on
    the circle. -/
def Hsl.WrapsNear (turn : Single) (y : ℚ) : Prop :=
  ∃ w, (wrapped turn).Denotes w ∧ 0 ≤ w ∧ |ramp (6 * w) - wave y| ≤ 6500 * roundoff

section

variable {turn : Single} {t y : ℚ} (ht : turn.Denotes t) (hd : |t - y / 6| ≤ 360 * roundoff)
include ht hd

/-- One turn further the ramp has come down, and at the exact place it has hardly started. -/
theorem wrapsNear_of_neg (h0 : -2 ≤ y) (hneg : t < 0) : Hsl.WrapsNear turn y := by
  have hpos := roundoff_pos
  have hsmall := roundoff_le
  rcases abs_le.mp hd with ⟨hlow, hhigh⟩
  rcases round_unit (v := t + 1) (by linarith) (by linarith) with ⟨hw0, hw1, herr, hfit⟩
  have hsum := ht.add denotes_one hfit
  have hturn := Hsl.wrapped_of_neg ht hneg hsum hw1
  refine ⟨_, hturn ▸ hsum, hw0, ?_⟩
  -- The ramp at the place it was brought to, and the wave at the exact place, are both near zero.
  have hend := abs_ramp_sub_le (6 * binary32.round (t + 1)) (y + 6)
  rw [ramp_of_four_le (y := y + 6) (by linarith)] at hend
  have hstart := abs_wave_sub_le y (min y 0)
  rw [wave_down (Or.inl (min_le_right y 0)), abs_of_nonneg (sub_nonneg.mpr (min_le_left y 0))]
    at hstart
  have hy : y - min y 0 ≤ 2160 * roundoff := by
    rcases min_cases y 0 with hmin | hmin <;> linarith
  have hgap : |6 * binary32.round (t + 1) - (y + 6)| ≤ 2166 * roundoff := by
    rcases abs_le.mp herr with ⟨h1, h2⟩
    exact abs_le.mpr ⟨by linarith, by linarith⟩
  rw [sub_zero] at hend hstart
  exact (abs_sub _ _).trans (by linarith)

/-- One turn back it is the second ramp of the wave. -/
theorem wrapsNear_of_one_lt (h1 : y ≤ 8) (hbeyond : 1 < t) : Hsl.WrapsNear turn y := by
  have hpos := roundoff_pos
  have hsmall := roundoff_le
  rcases abs_le.mp hd with ⟨hlow, hhigh⟩
  rcases round_unit (v := t - 1) (by linarith) (by linarith) with ⟨hw0, -, herr, hfit⟩
  have hdiff := ht.sub denotes_one hfit
  have hturn := Hsl.wrapped_of_one_lt ht hbeyond
  refine ⟨_, hturn ▸ hdiff, hw0, ?_⟩
  have hend := abs_ramp_sub_le (6 * binary32.round (t - 1)) (y - 6)
  have hgap : |6 * binary32.round (t - 1) - (y - 6)| ≤ 2166 * roundoff := by
    rcases abs_le.mp herr with ⟨h1, h2⟩
    exact abs_le.mpr ⟨by linarith, by linarith⟩
  rw [wave, ramp_of_four_le (y := y) (by linarith), zero_add]
  exact hend.trans (by linarith)

/-- On the circle it is the first one; the second one is still low. -/
theorem wrapsNear_of_mem (hnonneg : 0 ≤ t) (hwithin : t ≤ 1) : Hsl.WrapsNear turn y := by
  rcases abs_le.mp hd with ⟨hlow, hhigh⟩
  have hturn := Hsl.wrapped_of_mem ht hnonneg hwithin
  refine ⟨t, by rw [hturn]; exact ht, hnonneg, ?_⟩
  have hramp := abs_ramp_sub_le (6 * t) y
  have hgap : |6 * t - y| ≤ 2160 * roundoff := abs_le.mpr ⟨by linarith, by linarith⟩
  -- The second ramp has started at most where the turn has strayed beyond the end.
  have hnext := abs_ramp_sub_le (y - 6) (min (y - 6) 0)
  rw [ramp_of_le_zero (min_le_right (y - 6) 0), sub_zero,
    abs_of_nonneg (sub_nonneg.mpr (min_le_left (y - 6) 0))] at hnext
  have hy : y - 6 - min (y - 6) 0 ≤ 2160 * roundoff := by
    rcases min_cases (y - 6) 0 with hmin | hmin <;> linarith [roundoff_pos]
  rw [wave, ← sub_sub]
  exact (abs_sub _ _).trans (by linarith [roundoff_pos])

end

/-- A turn brought back lies on the circle and has nearly the height of its exact place. -/
theorem wrapsNear {turn : Single} {y : ℚ} (hturn : Near turn (y / 6) (360 * roundoff))
    (h0 : -2 ≤ y) (h1 : y ≤ 8) : Hsl.WrapsNear turn y := by
  rcases hturn with ⟨t, ht, hd⟩
  rcases lt_or_ge t 0 with hneg | hnonneg
  · exact wrapsNear_of_neg ht hd h0 hneg
  · rcases lt_or_ge 1 t with hbeyond | hwithin
    · exact wrapsNear_of_one_lt ht hd h1 hbeyond
    · exact wrapsNear_of_mem ht hd hnonneg hwithin

/-- The least and the greatest intensity of a colour are near `p` and `p + d`. -/
structure NearLevels (low high : Single) (p d : ℚ) : Prop where
  low : Near low p (7300 * roundoff)
  high : Near high (p + d) (7300 * roundoff)
  least_nonneg : 0 ≤ p
  spread_nonneg : 0 ≤ d
  greatest_le_one : p + d ≤ 1

namespace NearLevels

variable {low high turn : Single} {p d w x : ℚ} (h : NearLevels low high p d)
include h

theorem abs_spread_le_one : |d| ≤ 1 := by
  rw [abs_of_nonneg h.spread_nonneg]
  linarith [h.least_nonneg, h.greatest_le_one]

theorem spread : Near (high - low) d (14604 * roundoff) := by
  have hsize := h.abs_spread_le_one
  have hsmall := roundoff_le
  have hdiff := h.high.sub 1 h.low (ε := 14604 * roundoff)
    (by rw [add_sub_cancel_left]; linarith) (by linarith [roundoff_pos]) (by omega)
  rwa [add_sub_cancel_left] at hdiff

/-- A height that is close to another gives an intensity as close. -/
theorem abs_lift_sub_le {z ε : ℚ} (hx : |x - z| ≤ ε) : |p + d * x - (p + d * z)| ≤ ε := by
  rw [add_sub_add_left_eq_sub, ← mul_sub, abs_mul]
  have := mul_le_mul h.abs_spread_le_one hx (abs_nonneg _) zero_le_one
  linarith

theorem abs_lift_ramp_le_one (y : ℚ) : |p + d * ramp y| ≤ 1 := by
  rw [abs_of_nonneg
    (add_nonneg h.least_nonneg (mul_nonneg h.spread_nonneg (ramp_nonneg y)))]
  linarith [h.greatest_le_one, mul_le_of_le_one_right h.spread_nonneg (ramp_le_one y)]

/-- The formula of the sector where the intensity rises, up to a little beyond the sector's end. -/
theorem rising (hturn : turn.Denotes w) (h0 : 0 ≤ w) (h1 : w ≤ 1 / 6 + roundoff) :
    Near (low + (high - low) * 6 * turn) (p + d * ramp (6 * w)) (22500 * roundoff) := by
  have hpos := roundoff_pos
  have hsmall := roundoff_le
  have hramp : |6 * w - ramp (6 * w)| ≤ 6 * roundoff := by
    rcases le_or_gt (6 * w) 1 with hle | hgt
    · rw [ramp_rising (by linarith) hle, sub_self, abs_zero]
      linarith
    · rw [ramp_up hgt.le (by linarith), abs_of_pos (by linarith)]
      linarith
  -- Six times the spread is steep, but the turn that it is multiplied by is short.
  have hsteep := h.spread.mul 3 (denotes_six.near le_rfl) h.abs_spread_le_one
    (abs_of_pos (by norm_num)).le (ε := 87640 * roundoff) (by norm_num [roundoff])
    (by norm_num [roundoff]) (by omega)
  have hsize : |d * 6| ≤ 6 := by
    rw [abs_mul, abs_of_pos (by norm_num : (0 : ℚ) < 6)]
    linarith [h.abs_spread_le_one]
  have hrise := hsteep.mul 1 (hturn.near le_rfl) hsize ((abs_of_nonneg h0).le.trans h1)
    (ε := 14620 * roundoff) (by norm_num [roundoff]) (by norm_num [roundoff]) (by omega)
  rw [mul_assoc] at hrise
  have hstray := h.abs_lift_sub_le hramp
  have hlift := (abs_sub_abs_le_abs_sub (p + d * (6 * w)) (p + d * ramp (6 * w))).trans hstray
  have hsum := h.low.add 1 hrise (ε := 21930 * roundoff)
    (by linarith [h.abs_lift_ramp_le_one (6 * w)]) (by linarith) (by omega)
  exact hsum.congr hstray (by linarith)

/-- The formula of the sector where the intensity falls, up to a little beyond the sector's end. -/
theorem falling (hturn : turn.Denotes w) (h0 : 1 / 2 ≤ w) (h1 : w ≤ 2 / 3 + roundoff) :
    Near (low + (high - low) * (twoThirds - turn) * 6) (p + d * ramp (6 * w))
      (22500 * roundoff) := by
  have hpos := roundoff_pos
  have hsmall := roundoff_le
  have hramp : |(2 / 3 - w) * 6 - ramp (6 * w)| ≤ 6 * roundoff := by
    rcases le_or_gt (6 * w) 4 with hle | hgt
    · rw [ramp_falling (by linarith) hle, abs_le]
      exact ⟨by linarith, by linarith⟩
    · rw [ramp_of_four_le hgt.le, abs_le]
      exact ⟨by linarith, by linarith⟩
  have hrest : |2 / 3 - w| ≤ 1 / 6 := abs_le.mpr ⟨by linarith, by linarith⟩
  have hleft := near_twoThirds.sub 0 (hturn.near le_rfl) (ε := 2 * roundoff) (by linarith)
    (by linarith) (by omega)
  -- What is left to the end of the sector is short before it is multiplied by six.
  have hpart := h.spread.mul 0 hleft h.abs_spread_le_one hrest (ε := 2440 * roundoff)
    (by norm_num [roundoff]) (by norm_num [roundoff]) (by omega)
  have hsize : |d * (2 / 3 - w)| ≤ 1 / 6 := by
    rw [abs_mul]
    linarith [mul_le_mul h.abs_spread_le_one hrest (abs_nonneg _) zero_le_one]
  have hfall := hpart.mul 1 (denotes_six.near le_rfl) hsize (abs_of_pos (by norm_num)).le
    (ε := 14650 * roundoff) (by norm_num [roundoff]) (by norm_num [roundoff]) (by omega)
  rw [mul_assoc] at hfall
  have hstray := h.abs_lift_sub_le hramp
  have hlift := (abs_sub_abs_le_abs_sub (p + d * ((2 / 3 - w) * 6))
    (p + d * ramp (6 * w))).trans hstray
  have hsum := h.low.add 1 hfall (ε := 21960 * roundoff)
    (by linarith [h.abs_lift_ramp_le_one (6 * w)]) (by linarith) (by omega)
  exact hsum.congr hstray (by linarith)

/-- The intensity is near the ramp at the place that the turn has, whichever sector's formula gives
    it. Just beyond a sector's end the formulas of both sectors are close. -/
theorem intensityWithin (hturn : turn.Denotes w) (h0 : 0 ≤ w) :
    Near (Hsl.intensityWithin low high turn) (p + d * ramp (6 * w)) (22500 * roundoff) := by
  have hpos := roundoff_pos
  have hsmall := roundoff_le
  rcases near_sixth with ⟨a, ha, hda⟩
  rcases near_twoThirds with ⟨c, hc, hdc⟩
  rcases abs_le.mp hda with ⟨ha1, ha2⟩
  rcases abs_le.mp hdc with ⟨hc1, hc2⟩
  rw [Hsl.intensityWithin]
  split_ifs with hrise hup hfall
  · rw [hturn.lt_iff ha] at hrise
    exact h.rising hturn h0 (by linarith)
  · -- Between a sixth and a half the intensity is the greatest.
    rw [hturn.lt_iff ha] at hrise
    rw [hturn.lt_iff denotes_half] at hup
    have hramp := abs_one_sub_ramp_le (y := 6 * w) (ε := 6 * roundoff) (by linarith) (by linarith)
      (by linarith)
    have hstray := h.abs_lift_sub_le hramp
    rw [mul_one] at hstray
    exact h.high.congr hstray (by linarith)
  · rw [hturn.lt_iff denotes_half] at hup
    rw [hturn.lt_iff hc] at hfall
    exact h.falling hturn (by linarith) (by linarith)
  · -- Beyond two thirds it is the least.
    rw [hturn.lt_iff hc] at hfall
    have hramp := abs_zero_sub_ramp_le (y := 6 * w) (ε := 6 * roundoff) (by linarith) (by linarith)
    have hstray := h.abs_lift_sub_le hramp
    rw [mul_zero, add_zero] at hstray
    exact h.low.congr hstray (by linarith)

/-- The intensity is near the wave at the exact place of the turn. -/
theorem intensity {y : ℚ} (hturn : Near turn (y / 6) (360 * roundoff)) (h0 : -2 ≤ y) (h1 : y ≤ 8) :
    Near (Hsl.intensity low high turn) (p + d * wave y) (29000 * roundoff) := by
  rcases wrapsNear hturn h0 h1 with ⟨w, hw, hw0, hplace⟩
  rw [Hsl.intensity_eq]
  exact (h.intensityWithin hw hw0).congr (h.abs_lift_sub_le hplace) (by linarith)

end NearLevels

end Darkroom
