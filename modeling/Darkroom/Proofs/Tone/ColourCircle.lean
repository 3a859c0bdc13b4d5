import Mathlib.Algebra.Order.Field.Basic
import Mathlib.Algebra.Order.Field.Rat
import Mathlib.Algebra.Order.Group.MinMax
import Mathlib.Tactic.FieldSimp
import Mathlib.Tactic.Linarith
import Mathlib.Tactic.NormNum
import Mathlib.Tactic.Ring

/-!
# The Colour Circle

Hue and intensities without rounding.

A colour stands at a place on a circle, counted in sixths of a turn from red. The intensity of a
channel is a wave along this circle: it rises for a sixth, stays up for two, falls for one and stays
down for two. Red, green and blue are the same wave, two sixths apart. Written as one continuous
function the wave has no sectors any more, so a place that is slightly off changes an intensity
slightly, also where a sector ends and where the circle closes.

`isPlaceOf_circlePlace` is the exact conversion there and back: the place of a colour, put into the
wave, gives the colour again.

## Main definitions

* `ramp`: The wave of a channel on one turn.
* `wave`: The wave of a channel on the circle and two sixths beyond.
* `circlePlace`: The place of a colour.
* `IsPlaceOf`: A place gives three intensities.

## Theorems

* `abs_wave_sub_le`: The wave is continuous, with a slope of two at most.
* `isPlaceOf_circlePlace`: A colour from its place.
-/

namespace Darkroom

/-- The height of a channel at a place on one turn, counted from where it starts to rise. -/
def ramp (y : ℚ) : ℚ := max 0 (min 1 (2 - |y - 2|))

/-- The height of a channel at a place on the circle. Places may lie beyond the end of the turn,
    where the next one begins. -/
def wave (y : ℚ) : ℚ := ramp y + ramp (y - 6)

theorem ramp_nonneg (y : ℚ) : 0 ≤ ramp y := le_max_left _ _

theorem ramp_le_one (y : ℚ) : ramp y ≤ 1 := max_le zero_le_one (min_le_left _ _)

theorem abs_ramp_sub_le (y z : ℚ) : |ramp y - ramp z| ≤ |y - z| := by
  have h1 := abs_max_sub_max_le_max 0 (min 1 (2 - |y - 2|)) 0 (min 1 (2 - |z - 2|))
  have h2 := abs_min_sub_min_le_max 1 (2 - |y - 2|) 1 (2 - |z - 2|)
  have h3 : |2 - |y - 2| - (2 - |z - 2|)| ≤ |y - z| := by
    have := abs_abs_sub_abs_le_abs_sub (z - 2) (y - 2)
    rw [sub_sub_sub_cancel_left, ← abs_sub_comm z y]
    rwa [sub_sub_sub_cancel_right] at this
  have h0 (a : ℚ) : |a - a| ≤ |y - z| := by
    rw [sub_self, abs_zero]
    exact abs_nonneg _
  exact h1.trans (max_le (h0 0) (h2.trans (max_le (h0 1) h3)))

theorem abs_wave_sub_le (y z : ℚ) : |wave y - wave z| ≤ 2 * |y - z| := by
  have h1 := abs_ramp_sub_le y z
  have h2 := abs_ramp_sub_le (y - 6) (z - 6)
  rw [sub_sub_sub_cancel_right] at h2
  rw [wave, wave, add_sub_add_comm]
  exact (abs_add_le _ _).trans (by linarith)

theorem ramp_of_le_zero {y : ℚ} (h : y ≤ 0) : ramp y = 0 := by
  have h2 : 2 - |y - 2| ≤ 0 := by
    rw [abs_of_nonpos (by linarith)]
    linarith
  exact max_eq_left ((min_le_right _ _).trans h2)

theorem ramp_of_four_le {y : ℚ} (h : 4 ≤ y) : ramp y = 0 := by
  have h2 : 2 - |y - 2| ≤ 0 := by
    rw [abs_of_nonneg (by linarith)]
    linarith
  exact max_eq_left ((min_le_right _ _).trans h2)

theorem ramp_rising {y : ℚ} (h0 : 0 ≤ y) (h1 : y ≤ 1) : ramp y = y := by
  have h2 : 2 - |y - 2| = y := by
    rw [abs_of_nonpos (by linarith)]
    linarith
  rw [ramp, h2, min_eq_right h1, max_eq_right h0]

theorem ramp_up {y : ℚ} (h1 : 1 ≤ y) (h3 : y ≤ 3) : ramp y = 1 := by
  have h2 : 1 ≤ 2 - |y - 2| := by
    have : |y - 2| ≤ 1 := abs_le.mpr ⟨by linarith, by linarith⟩
    linarith
  rw [ramp, min_eq_left h2, max_eq_right zero_le_one]

theorem ramp_falling {y : ℚ} (h3 : 3 ≤ y) (h4 : y ≤ 4) : ramp y = 4 - y := by
  have h2 : 2 - |y - 2| = 4 - y := by
    rw [abs_of_nonneg (by linarith)]
    linarith
  rw [ramp, h2, min_eq_right (by linarith), max_eq_right (by linarith)]

/-- Just before the ramp is up it is nearly so. -/
theorem abs_one_sub_ramp_le {y ε : ℚ} (hε : 0 ≤ ε) (h1 : 1 - ε ≤ y) (h3 : y ≤ 3) :
    |1 - ramp y| ≤ ε := by
  rcases le_or_gt 1 y with hge | hlt
  · rwa [ramp_up hge h3, sub_self, abs_zero]
  · have hslope := abs_ramp_sub_le 1 y
    rw [ramp_up le_rfl (by norm_num), abs_of_pos (sub_pos.mpr hlt)] at hslope
    linarith

/-- Just before the ramp is down it is nearly so. -/
theorem abs_zero_sub_ramp_le {y ε : ℚ} (hε : 0 ≤ ε) (h4 : 4 - ε ≤ y) : |0 - ramp y| ≤ ε := by
  rcases le_or_gt 4 y with hge | hlt
  · rwa [ramp_of_four_le hge, sub_self, abs_zero]
  · have hslope := abs_ramp_sub_le 4 y
    rw [ramp_of_four_le le_rfl, abs_of_pos (sub_pos.mpr hlt)] at hslope
    linarith

theorem wave_down {y : ℚ} (h : y ≤ 0 ∨ 4 ≤ y ∧ y ≤ 6) : wave y = 0 := by
  rcases h with h | h
  · rw [wave, ramp_of_le_zero h, ramp_of_le_zero (by linarith), add_zero]
  · rw [wave, ramp_of_four_le h.1, ramp_of_le_zero (by linarith), add_zero]

theorem wave_rising {y : ℚ} (h0 : 0 ≤ y) (h1 : y ≤ 1) : wave y = y := by
  rw [wave, ramp_rising h0 h1, ramp_of_le_zero (by linarith), add_zero]

theorem wave_up {y : ℚ} (h1 : 1 ≤ y) (h3 : y ≤ 3) : wave y = 1 := by
  rw [wave, ramp_up h1 h3, ramp_of_le_zero (by linarith), add_zero]

theorem wave_falling {y : ℚ} (h3 : 3 ≤ y) (h4 : y ≤ 4) : wave y = 4 - y := by
  rw [wave, ramp_falling h3 h4, ramp_of_le_zero (by linarith), add_zero]

/-- Beyond the end of the turn the wave starts again. -/
theorem wave_add_six {y : ℚ} (h : -2 ≤ y) : wave (y + 6) = ramp y := by
  rw [wave, ramp_of_four_le (by linarith), add_sub_cancel_right, zero_add]

section

variable {t : ℚ} (h0 : 0 ≤ t) (h1 : t ≤ 1)
include h0 h1

/-! The three waves in the six sextants, at a distance of `t` from a channel that is up. -/

theorem waves_after_red : wave (t + 2) = 1 ∧ wave t = t ∧ wave (t - 2) = 0 :=
  ⟨wave_up (by linarith) (by linarith), wave_rising h0 h1, wave_down (Or.inl (by linarith))⟩

theorem waves_before_red :
    wave (-t + 6 + 2) = 1 ∧ wave (-t + 6) = 0 ∧ wave (-t + 6 - 2) = t := by
  refine ⟨?_, wave_down (Or.inr ⟨by linarith, by linarith⟩), ?_⟩
  · rw [add_right_comm, wave_add_six (by linarith), ramp_up (by linarith) (by linarith)]
  · rw [wave_falling (by linarith) (by linarith)]
    ring

theorem waves_after_green : wave (t + 2 + 2) = 0 ∧ wave (t + 2) = 1 ∧ wave (t + 2 - 2) = t := by
  refine ⟨wave_down (Or.inr ⟨by linarith, by linarith⟩), wave_up (by linarith) (by linarith), ?_⟩
  rw [add_sub_cancel_right, wave_rising h0 h1]

theorem waves_before_green :
    wave (-t + 2 + 2) = t ∧ wave (-t + 2) = 1 ∧ wave (-t + 2 - 2) = 0 := by
  refine ⟨?_, wave_up (by linarith) (by linarith), wave_down (Or.inl (by linarith))⟩
  rw [wave_falling (by linarith) (by linarith)]
  ring

theorem waves_after_blue : wave (t + 4 + 2) = t ∧ wave (t + 4) = 0 ∧ wave (t + 4 - 2) = 1 := by
  refine ⟨?_, wave_down (Or.inr ⟨by linarith, by linarith⟩), wave_up (by linarith) (by linarith)⟩
  rw [add_assoc, show (4 : ℚ) + 2 = 6 by norm_num, wave_add_six (by linarith), ramp_rising h0 h1]

theorem waves_before_blue :
    wave (-t + 4 + 2) = 0 ∧ wave (-t + 4) = t ∧ wave (-t + 4 - 2) = 1 := by
  refine ⟨wave_down (Or.inr ⟨by linarith, by linarith⟩), ?_, wave_up (by linarith) (by linarith)⟩
  rw [wave_falling (by linarith) (by linarith)]
  ring

end

/-- The distance between the greatest and the least of three intensities. -/
def spreadOf (r g b : ℚ) : ℚ := max (max r g) b - min (min r g) b

/-- The place of a colour on the circle. Of several intensities that are the greatest, the first
    decides. -/
def circlePlace (r g b : ℚ) : ℚ :=
  if max (max r g) b = r then (g - b) / spreadOf r g b + (if g < b then 6 else 0)
  else if max (max r g) b = g then (b - r) / spreadOf r g b + 2
  else (r - g) / spreadOf r g b + 4

section

variable {r g b : ℚ}

theorem circlePlace_of_red (hg : g ≤ r) (hb : b ≤ r) :
    circlePlace r g b = (g - b) / spreadOf r g b + (if g < b then 6 else 0) := by
  rw [circlePlace, if_pos (by rw [max_eq_left hg, max_eq_left hb])]

theorem circlePlace_of_green (hr : r < g) (hb : b ≤ g) :
    circlePlace r g b = (b - r) / spreadOf r g b + 2 := by
  have hmax : max (max r g) b = g := by rw [max_eq_right hr.le, max_eq_left hb]
  rw [circlePlace, hmax, if_neg hr.ne', if_pos rfl]

theorem circlePlace_of_blue (hr : r < b) (hg : g < b) :
    circlePlace r g b = (r - g) / spreadOf r g b + 4 := by
  have hmax : max (max r g) b = b := max_eq_right (max_le hr.le hg.le)
  rw [circlePlace, hmax, if_neg hr.ne', if_neg hg.ne']

/-- The share of a spread that lies between two intensities within it. -/
theorem share_bounds {x y d : ℚ} (hd : 0 < d) (h0 : y ≤ x) (h1 : x - y ≤ d) :
    0 ≤ (x - y) / d ∧ (x - y) / d ≤ 1 ∧ d * ((x - y) / d) = x - y :=
  ⟨div_nonneg (by linarith) hd.le, (div_le_one hd).mpr h1, mul_div_cancel₀ _ hd.ne'⟩

theorem sub_div_eq_neg {x y d : ℚ} : (x - y) / d = -((y - x) / d) := by rw [← neg_div, neg_sub]

/-- The waves at a place, lifted into the range of three intensities, are these intensities. -/
def IsPlaceOf (y r g b : ℚ) : Prop :=
  min (min r g) b + spreadOf r g b * wave (y + 2) = r ∧
    min (min r g) b + spreadOf r g b * wave y = g ∧
    min (min r g) b + spreadOf r g b * wave (y - 2) = b

theorem isPlaceOf_circlePlace_of_red (h : 0 < spreadOf r g b) (hgr : g ≤ r) (hbr : b ≤ r) :
    IsPlaceOf (circlePlace r g b) r g b := by
  have hmax : max (max r g) b = r := by rw [max_eq_left hgr, max_eq_left hbr]
  rw [circlePlace_of_red hgr hbr, IsPlaceOf]
  -- Which of the others is the least tells the side of red.
  by_cases hgb : g < b
  · have hmin : min (min r g) b = g := by rw [min_eq_right hgr, min_eq_left hgb.le]
    have hd : spreadOf r g b = r - g := by rw [spreadOf, hmax, hmin]
    rw [hd] at h ⊢
    rcases share_bounds h hgb.le (by linarith) with ⟨h0, h1, heq⟩
    rcases waves_before_red h0 h1 with ⟨hr, hg, hb⟩
    rw [if_pos hgb, sub_div_eq_neg, hr, hg, hb, heq, hmin]
    exact ⟨by ring, by ring, by ring⟩
  · have hbg := not_lt.mp hgb
    have hmin : min (min r g) b = b := min_eq_right (le_min hbr hbg)
    have hd : spreadOf r g b = r - b := by rw [spreadOf, hmax, hmin]
    rw [hd] at h ⊢
    rcases share_bounds h hbg (by linarith) with ⟨h0, h1, heq⟩
    rcases waves_after_red h0 h1 with ⟨hr, hg, hb⟩
    rw [if_neg hgb, add_zero, hr, hg, hb, heq, hmin]
    exact ⟨by ring, by ring, by ring⟩

theorem isPlaceOf_circlePlace_of_green (h : 0 < spreadOf r g b) (hrg : r < g) (hbg : b ≤ g) :
    IsPlaceOf (circlePlace r g b) r g b := by
  have hmax : max (max r g) b = g := by rw [max_eq_right hrg.le, max_eq_left hbg]
  rw [circlePlace_of_green hrg hbg, IsPlaceOf]
  -- So it does for green.
  by_cases hbr : b < r
  · have hmin : min (min r g) b = b := min_eq_right (le_min hbr.le hbg)
    have hd : spreadOf r g b = g - b := by rw [spreadOf, hmax, hmin]
    rw [hd] at h ⊢
    rcases share_bounds h hbr.le (by linarith) with ⟨h0, h1, heq⟩
    rcases waves_before_green h0 h1 with ⟨hr, hg, hb⟩
    rw [sub_div_eq_neg, hr, hg, hb, heq, hmin]
    exact ⟨by ring, by ring, by ring⟩
  · have hrb := not_lt.mp hbr
    have hmin : min (min r g) b = r := by rw [min_eq_left hrg.le, min_eq_left hrb]
    have hd : spreadOf r g b = g - r := by rw [spreadOf, hmax, hmin]
    rw [hd] at h ⊢
    rcases share_bounds h hrb (by linarith) with ⟨h0, h1, heq⟩
    rcases waves_after_green h0 h1 with ⟨hr, hg, hb⟩
    rw [hr, hg, hb, heq, hmin]
    exact ⟨by ring, by ring, by ring⟩

theorem isPlaceOf_circlePlace_of_blue (h : 0 < spreadOf r g b) (hrb : r < b) (hgb : g < b) :
    IsPlaceOf (circlePlace r g b) r g b := by
  have hmax : max (max r g) b = b := max_eq_right (max_le hrb.le hgb.le)
  rw [circlePlace_of_blue hrb hgb, IsPlaceOf]
  -- And for blue.
  by_cases hrg : r < g
  · have hmin : min (min r g) b = r := by rw [min_eq_left hrg.le, min_eq_left hrb.le]
    have hd : spreadOf r g b = b - r := by rw [spreadOf, hmax, hmin]
    rw [hd] at h ⊢
    rcases share_bounds h hrg.le (by linarith) with ⟨h0, h1, heq⟩
    rcases waves_before_blue h0 h1 with ⟨hr, hg, hb⟩
    rw [sub_div_eq_neg, hr, hg, hb, heq, hmin]
    exact ⟨by ring, by ring, by ring⟩
  · have hgr := not_lt.mp hrg
    have hmin : min (min r g) b = g := by rw [min_eq_right hgr, min_eq_left hgb.le]
    have hd : spreadOf r g b = b - g := by rw [spreadOf, hmax, hmin]
    rw [hd] at h ⊢
    rcases share_bounds h hgr (by linarith) with ⟨h0, h1, heq⟩
    rcases waves_after_blue h0 h1 with ⟨hr, hg, hb⟩
    rw [hr, hg, hb, heq, hmin]
    exact ⟨by ring, by ring, by ring⟩

/-- A colour from its place. At each of the six ways in which the intensities can be ordered, one
    wave is up, one is down, and the third stands at the middle intensity. -/
theorem isPlaceOf_circlePlace (h : 0 < spreadOf r g b) : IsPlaceOf (circlePlace r g b) r g b := by
  by_cases hred : g ≤ r ∧ b ≤ r
  · exact isPlaceOf_circlePlace_of_red h hred.1 hred.2
  by_cases hgreen : r < g ∧ b ≤ g
  · exact isPlaceOf_circlePlace_of_green h hgreen.1 hgreen.2
  -- What is left has blue above both others.
  rcases le_or_gt g r with hgr | hrg
  · have hrb : r < b := not_le.mp fun hbr => hred ⟨hgr, hbr⟩
    exact isPlaceOf_circlePlace_of_blue h hrb (lt_of_le_of_lt hgr hrb)
  · have hgb : g < b := not_le.mp fun hbg => hgreen ⟨hrg, hbg⟩
    exact isPlaceOf_circlePlace_of_blue h (hrg.trans hgb) hgb

end

end Darkroom
