import Darkroom.Proofs.Tone.IntensityRange

/-!
# Colours in Range

A hue, a saturation and a lightness in their ranges give intensities between zero and one, with one
exception that is too great by one last place.

The greatest intensity is a sum less a product in bright colours, and the sum can be above one. The
product is then not less than what the sum of the exact operands has above one, because that is a
number of the format itself. So the greatest intensity does not pass one, and the least one, as far
below the lightness as the greatest is above, does not pass zero.

## Main definitions

* `Hsl.InRange`: What is true of the intensity at a turn.

## Theorems

* `bright_bounds`: The greatest intensity of bright colours is a share.
* `isSpan`: The least intensity beside any greatest one.
* `Hsl.exists_levels`: The least and the greatest intensity of a colour.
* `Hsl.exists_wrapped`: A turn that has left the circle comes back to it.
* `Hsl.toRgb_in_range`: All intensities are in range, but for the place one half.
-/

namespace Darkroom

open Binary

section

variable {l s : ℚ} (hl : IsShare l) (hs : IsShare s)
include hl hs

/-- What a sum of shares has above one is a number of the format, as long as one of them is at
    least one half. -/
theorem representable_add_sub_one (hbright : 1 / 2 ≤ l) (h : 1 ≤ l + s) :
    binary32.Representable (l + s - 1) := by
  rcases hs.le_one.eq_or_lt with heq | hlt
  · rw [heq, add_sub_cancel_right]
    exact hl.representable
  rcases hs.nonneg.eq_or_lt with hzero | hpos
  · rw [← hzero, add_zero] at h ⊢
    rw [le_antisymm hl.le_one h, sub_self]
    exact BinaryFormat.representable_zero
  -- The last place of the smaller one is a place of both.
  have hplace : binary32.place s ≤ -24 := by
    have hlog := (Int.lt_zpow_iff_log_lt (b := 2) (by norm_num) (abs_pos.mpr hpos.ne') (x := 0)).mp
      (by rw [abs_of_pos hpos]; simpa using hlt)
    rw [BinaryFormat.place]
    simp only [binary32]
    omega
  rcases exists_multiple_of_inv_le (k := 1) (d := -24) rfl (by linarith) hl.representable with
    ⟨m, hm⟩
  rcases BinaryFormat.exists_multiple_of_zpow_le hplace (m - 2 ^ 24) with ⟨k, hk⟩
  rcases hs.representable.exists_multiple_place with ⟨n, hn⟩
  have hsplit : l + s - 1 = (m - 2 ^ 24 : ℤ) * 2 ^ (-24 : ℤ) + s := by
    rw [hm]
    push_cast
    norm_num
    ring
  have hsum : l + s - 1 = (k + n : ℤ) * 2 ^ binary32.place s := by
    push_cast
    rw [add_mul, ← hn, ← hk, hsplit]
  refine BinaryFormat.representable_of_multiple (binary32.minExponent_le_place s) hsum ?_
  rw [abs_of_nonneg (by linarith)]
  have hsize := binary32.abs_lt_two_zpow_place s
  rw [abs_of_pos hpos] at hsize
  linarith [hl.le_one]

/-- In bright colours the greatest intensity is a share, and hardly below the lightness. -/
theorem bright_bounds (hbright : 1 / 2 ≤ l) :
    binary32.round (binary32.round (l + s) - binary32.round (l * s)) ≤ 1 ∧
      l - 2 * roundoff ≤ binary32.round (binary32.round (l + s) - binary32.round (l * s)) := by
  have hl1 := hl.le_one
  have hs0 := hs.nonneg
  have hs1 := hs.le_one
  have hsum := abs_le.mp (abs_round_sub_le_roundoff (q := l + s) 1
    (by rw [abs_of_nonneg (by linarith)]; linarith))
  have hproduct := round_nonneg (mul_nonneg hl.nonneg hs0)
  have hproduct_le := BinaryFormat.round_le_of_le hs.representable
    (mul_le_of_le_one_left hs0 hl1)
  constructor
  · rcases le_or_gt (l + s) 1 with hle | hgt
    · have hone := BinaryFormat.round_le_of_le denotes_one.representable hle
      exact BinaryFormat.round_le_of_le denotes_one.representable (by linarith)
    · have hexcess := BinaryFormat.le_round_of_le (representable_add_sub_one hl hs hbright hgt.le)
        (show l + s - 1 ≤ l * s by nlinarith)
      exact round_le_one (by linarith)
  · rcases exists_multiple_of_inv_le (k := 1) (d := -24) rfl (by linarith) hl.representable with
      ⟨m, hm⟩
    have hbelow : binary32.Representable (l - 2 * roundoff) := by
      refine BinaryFormat.representable_of_multiple (n := m - 1) (d := -24) (by decide) ?_ ?_
      · rw [hm, roundoff]
        push_cast
        norm_num
        ring
      · rw [abs_of_nonneg (by linarith [roundoff_le])]
        norm_num [binary32]
        linarith [roundoff_pos]
    exact BinaryFormat.le_round_of_le hbelow (by linarith)

end

/-- Twice a lightness less a greatest intensity of one is not rounded. -/
theorem exists_multiple_low_of_one {l : ℚ} (hl : IsShare l) (h0 : 1 ≤ 2 * l) :
    ∃ n : ℤ, binary32.round (2 * l - 1) = n * 2 ^ (-23 : ℤ) := by
  rcases exists_multiple_of_inv_le (k := 1) (d := -24) rfl (by linarith) hl.representable with
    ⟨m, hm⟩
  have hdiff : 2 * l - 1 = (m - 2 ^ 23 : ℤ) * 2 ^ (-23 : ℤ) := by
    rw [hm]
    push_cast
    norm_num
    ring
  refine ⟨m - 2 ^ 23, ?_⟩
  rw [← hdiff]
  refine BinaryFormat.round_of_representable
    (BinaryFormat.representable_of_multiple (by decide) hdiff ?_)
  rw [abs_of_nonneg (by linarith)]
  norm_num [binary32]
  linarith [hl.le_one]

section

variable {l q : ℚ} (hl : IsShare l) (hq : IsShare q) (h0 : q ≤ 2 * l)
  (h1 : l - 2 * roundoff ≤ q)
include hl hq h0 h1

/-- Twice a lightness less a greatest intensity from one half on is not rounded, unless it is hardly
    above one. Then it is rounded down to one. -/
theorem exists_multiple_low (hhalf : 1 / 2 ≤ q) :
    ∃ n : ℤ, binary32.round (2 * l - q) = n * 2 ^ (-24 : ℤ) := by
  rcases le_or_gt (2 * l - q) 1 with hle | hgt
  · rcases exists_multiple_of_inv_le (k := 2) (d := -25) rfl (by linarith) hl.representable with
      ⟨m, hm⟩
    rcases exists_multiple_of_inv_le (k := 1) (d := -24) rfl (by linarith) hq.representable with
      ⟨n, hn⟩
    have hdiff : 2 * l - q = (m - n : ℤ) * 2 ^ (-24 : ℤ) := by
      rw [hm, hn]
      push_cast
      norm_num
      ring
    refine ⟨m - n, ?_⟩
    rw [← hdiff]
    refine BinaryFormat.round_of_representable
      (BinaryFormat.representable_of_multiple (by decide) hdiff ?_)
    rw [abs_of_nonneg (by linarith)]
    norm_num [binary32]
    linarith
  · refine ⟨2 ^ 24, ?_⟩
    have hone := BinaryFormat.le_round_of_le denotes_one.representable hgt.le
    rw [le_antisymm (round_le_one (by linarith [hl.le_one])) hone]
    norm_num

/-- The least and the greatest intensity of a colour with the lightness `l`, if the greatest one is
    neither above twice the lightness nor noticeably below it. -/
theorem isSpan (hdark : l < 1 / 2 → l ≤ q) : IsSpan (binary32.round (2 * l - q)) q where
  low := ⟨BinaryFormat.representable_round _, round_nonneg (sub_nonneg.mpr h0),
    round_le_one (by linarith [hl.le_one])⟩
  high := hq
  exists_multiple := exists_multiple_low hl hq h0 h1
  exists_multiple_of_one hone := by
    subst hone
    exact exists_multiple_low_of_one hl h0
  quarter_le hlt := by
    rcases lt_or_ge l (1 / 2) with hlow | hbright
    · have hle := BinaryFormat.round_le_of_le hq.representable
        (show 2 * l - q ≤ q by linarith [hdark hlow])
      exact absurd hlt (not_lt.mpr hle)
    · linarith [roundoff_le]

end

namespace Hsl

section

variable {c : Hsl} {l s : ℚ} (hlight : c.lightness.Denotes l) (hl : IsShare l)
include hlight hl

/-- The least intensity is found in one way from any greatest one. -/
theorem exists_levels_of_high {q : ℚ} (hq : IsShare q) (hhigh : c.high.Denotes q)
    (h0 : q ≤ 2 * l) (h1 : l - 2 * roundoff ≤ q) (hdark : l < 1 / 2 → l ≤ q) :
    ∃ p q, c.low.Denotes p ∧ c.high.Denotes q ∧ IsSpan p q := by
  have htwice := denotes_two.mul hlight (abs_round_le_greatest 1 (by norm_num)
    (by rw [abs_of_nonneg (by linarith [hl.nonneg])]; linarith [hl.le_one]))
  rw [BinaryFormat.round_of_representable hl.representable.two_mul] at htwice
  exact ⟨_, q, htwice.sub hhigh (abs_round_le_greatest 1 (by norm_num)
    (abs_le.mpr ⟨by linarith [hq.le_one], by linarith [hq.nonneg, hl.le_one]⟩)), hhigh,
    isSpan hl hq h0 h1 hdark⟩

variable (hsat : c.saturation.Denotes s) (hs : IsShare s)
include hsat hs

/-- In dark colours the greatest intensity is a product, of the lightness and a factor between one
    and two. -/
theorem exists_levels_of_dark (hdark : c.lightness < half) :
    ∃ p q, c.low.Denotes p ∧ c.high.Denotes q ∧ IsSpan p q := by
  have hl0 := hl.nonneg
  have hs0 := hs.nonneg
  have hs1 := hs.le_one
  have hlt := (hlight.lt_iff denotes_half).mp hdark
  have hfactor := denotes_one.add hsat (abs_round_le_greatest 1 (by norm_num)
    (by rw [abs_of_nonneg (by linarith)]; linarith))
  have hfactor0 := BinaryFormat.le_round_of_le denotes_one.representable
    (show 1 ≤ 1 + s by linarith)
  have hfactor1 := BinaryFormat.round_le_of_le denotes_two.representable
    (show 1 + s ≤ 2 by linarith)
  have hsize : l * binary32.round (1 + s) ≤ 2 * l := by
    rw [mul_comm 2]
    exact mul_le_mul_of_nonneg_left hfactor1 hl0
  have hbelow := BinaryFormat.round_le_of_le hl.representable.two_mul hsize
  have habove := BinaryFormat.le_round_of_le hl.representable (le_mul_of_one_le_right hl0 hfactor0)
  have hhigh : c.high.Denotes (binary32.round (l * binary32.round (1 + s))) := by
    rw [high, if_pos hdark]
    exact hlight.share_mul hfactor (by rw [abs_of_nonneg hl0]; exact hl.le_one)
  exact exists_levels_of_high hlight hl
    ⟨BinaryFormat.representable_round _, by linarith, by linarith⟩ hhigh hbelow
    (by linarith [roundoff_pos]) (fun _ => habove)

/-- In bright colours the greatest intensity is a sum less a product. -/
theorem exists_levels_of_bright (hbright : ¬c.lightness < half) :
    ∃ p q, c.low.Denotes p ∧ c.high.Denotes q ∧ IsSpan p q := by
  have hl0 := hl.nonneg
  have hl1 := hl.le_one
  have hs0 := hs.nonneg
  have hs1 := hs.le_one
  have hhalf := not_lt.mp (mt (hlight.lt_iff denotes_half).mpr hbright)
  rcases bright_bounds hl hs hhalf with ⟨hone, habove⟩
  have hsum := hlight.add hsat (abs_round_le_greatest 1 (by norm_num)
    (by rw [abs_of_nonneg (by linarith)]; linarith))
  have hproduct := hlight.share_mul hsat (by rwa [abs_of_nonneg hl0])
  have hsum_le := BinaryFormat.abs_round_le denotes_two.representable (q := l + s)
    (by rw [abs_of_nonneg (by linarith)]; linarith)
  have hproduct_le := round_unit (mul_nonneg hl0 hs0) (mul_le_one₀ hl1 hs0 hs1)
  have hhigh : c.high.Denotes
      (binary32.round (binary32.round (l + s) - binary32.round (l * s))) := by
    rw [high, if_neg hbright]
    refine hsum.sub hproduct (abs_round_le_greatest 2 (by norm_num) ?_)
    exact abs_le.mpr ⟨by linarith [abs_le.mp hsum_le], by linarith [abs_le.mp hsum_le]⟩
  exact exists_levels_of_high hlight hl
    ⟨BinaryFormat.representable_round _, by linarith [roundoff_le], hone⟩ hhigh (by linarith)
    habove (fun hlt => absurd hhalf (not_le.mpr hlt))

/-- The least and the greatest intensity of a colour. -/
theorem exists_levels : ∃ p q, c.low.Denotes p ∧ c.high.Denotes q ∧ IsSpan p q := by
  by_cases hdark : c.lightness < half
  · exact exists_levels_of_dark hlight hl hsat hs hdark
  · exact exists_levels_of_bright hlight hl hsat hs hdark

end

/-- A turn that is less than one away from the circle is brought back to it. -/
theorem exists_wrapped {turn : Single} {t : ℚ} (ht : turn.Denotes t) (h0 : -1 ≤ t) (h1 : t ≤ 2) :
    ∃ w, (wrapped turn).Denotes w ∧ 0 ≤ w := by
  rcases lt_or_ge t 0 with hneg | hnonneg
  · rcases round_unit (v := t + 1) (by linarith) (by linarith) with ⟨hw0, hw1, -, hfit⟩
    have hsum := ht.add denotes_one hfit
    exact ⟨_, wrapped_of_neg ht hneg hsum hw1 ▸ hsum, hw0⟩
  · rcases lt_or_ge 1 t with hbeyond | hwithin
    · rcases round_unit (v := t - 1) (by linarith) (by linarith) with ⟨hw0, -, -, hfit⟩
      exact ⟨_, wrapped_of_one_lt ht hbeyond ▸ ht.sub denotes_one hfit, hw0⟩
    · exact ⟨t, (wrapped_of_mem ht hnonneg hwithin).symm ▸ ht, hnonneg⟩

/-- An intensity is in range, except that at the place one half it can be the number after one. -/
def InRange (x turn : Single) : Prop :=
  0 ≤ x ∧ x ≤ afterOne ∧ (¬(wrapped turn).equal half = true → x ≤ 1)

/-- The intensity at a turn that is less than one away from the circle is in range. -/
theorem inRange_intensity {low high turn : Single} {p q t : ℚ} (h : IsSpan p q)
    (hlow : low.Denotes p) (hhigh : high.Denotes q) (ht : turn.Denotes t) (h0 : -1 ≤ t)
    (h1 : t ≤ 2) : InRange (intensity low high turn) turn := by
  rcases exists_wrapped ht h0 h1 with ⟨w, hw, hw0⟩
  rcases h.exists_intensityWithin hlow hhigh hw hw0 with ⟨v, hv, hv0, hv1, hone⟩
  rw [intensity_eq]
  refine ⟨(denotes_ofNat_zero.le_iff hv).mpr hv0, (hv.le_iff denotes_afterOne).mpr hv1,
    fun hplace => (hv.le_iff denotes_one).mpr (hone ?_)⟩
  rwa [hw.equal_iff denotes_half] at hplace

/-- A share is in range at every place. -/
theorem inRange_of_isShare {x : Single} {v : ℚ} (hx : x.Denotes v) (hv : IsShare v)
    (turn : Single) : InRange x turn := by
  have hone := (hx.le_iff denotes_one).mpr hv.le_one
  refine ⟨(denotes_ofNat_zero.le_iff hx).mpr hv.nonneg, (hx.le_iff denotes_afterOne).mpr ?_,
    fun _ => hone⟩
  linarith [hv.le_one, roundoff_pos]

/-- A colour whose hue is at least zero and below one, and whose saturation and lightness lie
    between zero and one, has no intensity below zero, and none above one except at the place one
    half. There it is at most the number after one. -/
theorem toRgb_in_range (c : Hsl) (hhue : 0 ≤ c.hue ∧ c.hue < 1)
    (hsat : 0 ≤ c.saturation ∧ c.saturation ≤ 1) (hlight : 0 ≤ c.lightness ∧ c.lightness ≤ 1) :
    InRange c.toRgb.red (c.hue + third) ∧ InRange c.toRgb.green c.hue ∧
      InRange c.toRgb.blue (c.hue - third) := by
  rcases exists_isShare hlight.1 hlight.2 with ⟨l, hlightness, hl⟩
  rcases exists_isShare hsat.1 hsat.2 with ⟨s, hsaturation, hs⟩
  have hone : c.hue ≤ 1 := by
    have hle : c.hue ≤ 1 ↔ (c.hue.less 1 || c.hue.equal 1) = true := Iff.rfl
    rw [hle, Bool.or_eq_true]
    exact Or.inl hhue.2
  rcases exists_isShare hhue.1 hone with ⟨h, hturn, hh⟩
  rw [toRgb]
  split_ifs with hgrey
  · exact ⟨inRange_of_isShare hlightness hl _, inRange_of_isShare hlightness hl _,
      inRange_of_isShare hlightness hl _⟩
  rcases exists_levels hlightness hl hsaturation hs with ⟨p, q, hlow, hhigh, hspan⟩
  rcases near_third with ⟨t, hthird, hnear⟩
  rcases abs_le.mp hnear with ⟨ht0, ht1⟩
  have hsmall := roundoff_le
  have h0 := hh.nonneg
  have h1 := hh.le_one
  have hsum := hturn.add hthird (abs_round_le_greatest 1 (by norm_num)
    (abs_le.mpr ⟨by linarith, by linarith⟩))
  have hdiff := hturn.sub hthird (abs_round_le_greatest 1 (by norm_num)
    (abs_le.mpr ⟨by linarith, by linarith⟩))
  refine ⟨?_, ?_, ?_⟩
  · exact inRange_intensity hspan hlow hhigh hsum
      (BinaryFormat.le_round_of_le denotes_one.representable.neg (by linarith))
      (BinaryFormat.round_le_of_le denotes_two.representable (by linarith))
  · exact inRange_intensity hspan hlow hhigh hturn (by linarith) (by linarith)
  · exact inRange_intensity hspan hlow hhigh hdiff
      (BinaryFormat.le_round_of_le denotes_one.representable.neg (by linarith))
      (BinaryFormat.round_le_of_le denotes_two.representable (by linarith))

/-- A quarter of a turn from red: no intensity is at the place one half. -/
theorem toRgb_in_range_quarter :
    let c : Hsl := ⟨ofRatio false 1 4 0, 1, half⟩
    (0 ≤ c.hue ∧ c.hue < 1) ∧ (0 ≤ c.saturation ∧ c.saturation ≤ 1) ∧
      (0 ≤ c.lightness ∧ c.lightness ≤ 1) ∧ c.toRgb.red ≤ 1 ∧ c.toRgb.green ≤ 1 ∧
      c.toRgb.blue ≤ 1 := by
  have hhue : 0 ≤ (ofRatio false 1 4 0 : Single) ∧ (ofRatio false 1 4 0 : Single) < 1 := by decide
  have hsat : (0 : Single) ≤ 1 ∧ (1 : Single) ≤ 1 := by decide
  have hlight : 0 ≤ half ∧ half ≤ 1 := by decide
  have hrange := toRgb_in_range ⟨ofRatio false 1 4 0, 1, half⟩ hhue hsat hlight
  exact ⟨hhue, hsat, hlight, hrange.1.2.2 (by decide), hrange.2.1.2.2 (by decide),
    hrange.2.2.2.2 (by decide)⟩

/-- Full saturation at the place one half exactly: green has the intensity that comes after one. -/
theorem toRgb_exceeds_one :
    let c : Hsl := ⟨half, 1, half⟩
    (0 ≤ c.hue ∧ c.hue < 1) ∧ (0 ≤ c.saturation ∧ c.saturation ≤ 1) ∧
      (0 ≤ c.lightness ∧ c.lightness ≤ 1) ∧ c.toRgb.green = afterOne ∧ ¬c.toRgb.green ≤ 1 := by
  decide

end Hsl

end Darkroom
