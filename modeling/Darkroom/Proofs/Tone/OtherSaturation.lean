import Darkroom.Proofs.Tone.HueNearness

/-!
# Colours of Another Saturation

A colour of bytes whose saturation is replaced keeps its lightness, and its levels move apart or
together around it.

Without rounding the greatest and the least share stand at one distance from their mean, the reach.
The reach is the saturation times the room that the mean leaves on its nearer side. So it grows with
the saturation, and no saturation up to one moves a level below zero or above one. `moved` is the
place that a share has between the new levels; the intensities that are worked out with rounding
stay near it, in every sector of the circle and on both sides of the middle lightness.

Near the middle the rounded lightness may fall on the other side of one half than the exact mean. It
does so only where the mean is one half: means are 510ths, and the lightness strays by far less.

## Main definitions

* `ByteColour.mean`: The mean of the greatest and the least share.
* `ByteColour.reach`: How far the levels of a saturation are from the mean.
* `ByteColour.moved`: Where a share comes to stand.
* `ByteColour.withSaturation`: The intensities of a colour whose saturation is replaced.

## Theorems

* `ByteColour.exists_saturation`: The saturation of a colour is a share, near the exact one.
* `ByteColour.spread_eq_reach`: The levels of a colour are those of its exact saturation.
* `ByteColour.nearLevels_withSaturation`: The levels of another saturation.
* `ByteColour.near_withSaturation`: The intensities are near the moved shares.
-/

namespace Darkroom

open Binary

/-- A positive number divided by one that is not smaller is a share. -/
theorem Binary.Denotes.exists_div_share {x y : Single} {p q : ℚ} (hx : x.Denotes p)
    (hy : y.Denotes q) (h0 : 0 < p) (hle : p ≤ q) : ∃ s, (x / y).Denotes s ∧ 0 ≤ s ∧ s ≤ 1 := by
  have hq : 0 < q := h0.trans_le hle
  rcases round_unit (v := p / q) (by positivity) ((div_le_one hq).mpr hle) with ⟨hs0, hs1, -, hfit⟩
  exact ⟨_, hx.div hy hq.ne' hfit, hs0, hs1⟩

theorem shareValue_unit {n : ℕ} (h : n ≤ 255) : 0 ≤ shareValue n ∧ shareValue n ≤ 1 := by
  rcases round_unit (share_unit h).1 (share_unit h).2 with ⟨h0, h1, -⟩
  exact ⟨h0, h1⟩

namespace ByteColour

variable {t : ByteColour}

/-- Above the middle the divisor is what is left to one on both sides, below it the sum. Each is at
    least the spread, also after rounding. -/
theorem exists_saturation_of_lt (h : t.bottom < t.top) :
    ∃ s, t.shares.saturation.Denotes s ∧ 0 ≤ s ∧ s ≤ 1 := by
  rcases shareValue_unit t.top_le with ⟨hM0, hM1⟩
  rcases shareValue_unit (t.bottom_le_top.trans t.top_le) with ⟨hm0, hm1⟩
  have hlt := shareValue_lt h t.top_le
  have hspread := t.denotes_greatest.sub t.denotes_least
    (round_unit (by linarith) (by linarith)).2.2.2
  -- The spread of a colour that is not grey is positive after rounding.
  have hpos : 0 < binary32.round (shareValue t.top - shareValue t.bottom) := by
    have hchromatic := isChromatic_eq h
    rw [Rgb.isChromatic, decide_eq_true_iff] at hchromatic
    exact (denotes_ofNat_zero.lt_iff hspread).mp hchromatic
  rw [Rgb.saturation, if_pos (isChromatic_eq h)]
  split_ifs
  · have hfirst := denotes_two.sub t.denotes_greatest
      (abs_round_le_greatest 1 (by norm_num) (abs_le.mpr ⟨by linarith, by linarith⟩))
    have hone : 1 ≤ binary32.round (2 - shareValue t.top) :=
      BinaryFormat.le_round_of_le denotes_one.representable (by linarith)
    have htwo : binary32.round (2 - shareValue t.top) ≤ 2 :=
      BinaryFormat.round_le_of_le denotes_two.representable (by linarith)
    have hrest := hfirst.sub t.denotes_least
      (abs_round_le_greatest 1 (by norm_num) (abs_le.mpr ⟨by linarith, by linarith⟩))
    exact hspread.exists_div_share hrest hpos (BinaryFormat.round_mono (by linarith))
  · have htotal := t.denotes_greatest.add t.denotes_least
      (abs_round_le_greatest 1 (by norm_num) (abs_le.mpr ⟨by linarith, by linarith⟩))
    exact hspread.exists_div_share htotal hpos (BinaryFormat.round_mono (by linarith))

variable (t)

/-- The saturation of a colour is a share, near the exact one. Grey has none. -/
theorem exists_saturation :
    ∃ s, t.shares.saturation.Denotes s ∧ 0 ≤ s ∧ s ≤ 1 ∧ |s - t.exactSaturation| ≤ 2560 * roundoff ∧
      (t.bottom = t.top → s = 0) := by
  rcases lt_or_eq_of_le t.bottom_le_top with h | h
  · rcases exists_saturation_of_lt h with ⟨s, hs, h0, h1⟩
    rcases near_saturation h with ⟨v, hv, hd⟩
    rw [hv.unique hs] at hd
    exact ⟨s, hs, h0, h1, hd, fun heq => absurd heq h.ne⟩
  · have hexact : t.exactSaturation = 0 := by
      rw [exactSaturation, greatest, least, h, sub_self, zero_div]
    have hnone : t.shares.saturation = 0 := congrArg Hsl.saturation (toHsl_of_grey h)
    refine ⟨0, hnone ▸ denotes_ofNat_zero, le_rfl, zero_le_one, ?_, fun _ => rfl⟩
    rw [hexact, sub_self, abs_zero]
    exact mul_nonneg (by norm_num) roundoff_pos.le

/-- The mean of the greatest and the least share. -/
def mean : ℚ := (t.greatest + t.least) / 2

/-- How far the levels of a saturation are from the mean. -/
def reach (σ : ℚ) : ℚ := σ * min t.mean (1 - t.mean)

/-- Where a share comes to stand between the levels of a saturation. -/
def moved (σ q : ℚ) : ℚ :=
  t.mean - t.reach σ + 2 * t.reach σ * ((q - t.least) / (t.greatest - t.least))

theorem mean_nonneg : 0 ≤ t.mean := by
  have := t.least_nonneg
  have := t.least_le_greatest
  rw [mean]
  linarith

theorem mean_le_one : t.mean ≤ 1 := by
  have := t.greatest_le_one
  have := t.least_le_greatest
  rw [mean]
  linarith

/-- Means are 510ths. -/
theorem mean_eq : t.mean = (t.top + t.bottom : ℕ) / 510 := by
  rw [mean, greatest, least]
  push_cast
  ring

theorem mean_le_half (h : t.mean < 1 / 2 + 1 / 510) : t.mean ≤ 1 / 2 := by
  rw [mean_eq] at h ⊢
  have hlt : ((t.top + t.bottom : ℕ) : ℚ) < (256 : ℕ) := by
    push_cast at h ⊢
    linarith
  have hle : ((t.top + t.bottom : ℕ) : ℚ) ≤ (255 : ℕ) := by
    have := Nat.cast_lt.mp hlt
    exact_mod_cast (by omega : t.top + t.bottom ≤ 255)
  push_cast at hle ⊢
  linarith

theorem half_le_mean (h : 1 / 2 - 1 / 510 < t.mean) : 1 / 2 ≤ t.mean := by
  rw [mean_eq] at h ⊢
  have hlt : ((254 : ℕ) : ℚ) < (t.top + t.bottom : ℕ) := by
    push_cast at h ⊢
    linarith
  have hle : ((255 : ℕ) : ℚ) ≤ (t.top + t.bottom : ℕ) := by
    have := Nat.cast_lt.mp hlt
    exact_mod_cast (by omega : 255 ≤ t.top + t.bottom)
  push_cast at hle ⊢
  linarith

/-- The rounded lightness and the exact mean are on one side of the middle, or the mean is the
    middle. -/
theorem mean_le_half_of_not_lt (h : ¬half < t.shares.lightness) : t.mean ≤ 1 / 2 := by
  rcases t.near_lightness with ⟨l, hl, hd⟩
  rw [denotes_half.lt_iff hl] at h
  have hsmall := roundoff_le
  refine t.mean_le_half ?_
  rw [mean]
  linarith [(abs_le.mp hd).1]

theorem half_le_mean_of_not_lt (h : ¬t.shares.lightness < half) : 1 / 2 ≤ t.mean := by
  rcases t.near_lightness with ⟨l, hl, hd⟩
  rw [hl.lt_iff denotes_half] at h
  have hsmall := roundoff_le
  refine t.half_le_mean ?_
  rw [mean]
  linarith [(abs_le.mp hd).2]

theorem reach_of_dark {σ : ℚ} (h : t.mean ≤ 1 / 2) : t.reach σ = σ * t.mean := by
  rw [reach, min_eq_left (by linarith)]

theorem reach_of_bright {σ : ℚ} (h : 1 / 2 ≤ t.mean) : t.reach σ = σ * (1 - t.mean) := by
  rw [reach, min_eq_right (by linarith)]

theorem reach_zero : t.reach 0 = 0 := zero_mul _

theorem room_bounds :
    0 ≤ min t.mean (1 - t.mean) ∧ min t.mean (1 - t.mean) ≤ 1 / 2 := by
  refine ⟨le_min t.mean_nonneg (sub_nonneg.mpr t.mean_le_one), ?_⟩
  rcases min_cases t.mean (1 - t.mean) with h | h <;> linarith

/-- A greater saturation reaches further. -/
theorem reach_mono : Monotone t.reach := fun _ _ h =>
  mul_le_mul_of_nonneg_right h t.room_bounds.1

/-- Saturations that are close reach nearly as far. -/
theorem abs_reach_sub_le {σ τ ε : ℚ} (h : |σ - τ| ≤ ε) : |t.reach σ - t.reach τ| ≤ ε / 2 := by
  rcases t.room_bounds with ⟨h0, h1⟩
  rw [reach, reach, ← sub_mul, abs_mul, abs_of_nonneg h0, div_eq_mul_one_div]
  exact mul_le_mul h h1 h0 ((abs_nonneg _).trans h)

/-- The levels of a colour are those of its exact saturation. -/
theorem spread_eq_reach : t.greatest - t.least = 2 * t.reach t.exactSaturation := by
  rcases lt_or_eq_of_le t.bottom_le_top with h | h
  · by_cases hbright : half < t.shares.lightness
    · have hmean := t.half_le_mean_of_not_lt fun hdark => t.not_half_lt hdark hbright
      rw [t.reach_of_bright hmean, spread_eq_of_bright h hbright, mean]
      ring
    · rw [t.reach_of_dark (t.mean_le_half_of_not_lt hbright), spread_eq_of_dark h hbright, mean]
      ring
  · have hspread : t.greatest - t.least = 0 := by rw [greatest, least, h, sub_self]
    rw [exactSaturation, hspread, zero_div, reach_zero, mul_zero]

theorem reach_nonneg {σ : ℚ} (h0 : 0 ≤ σ) : 0 ≤ t.reach σ := mul_nonneg h0 t.room_bounds.1

/-- No saturation up to one moves a level below zero or above one. -/
theorem reach_le {σ : ℚ} (h1 : σ ≤ 1) : t.reach σ ≤ t.mean ∧ t.reach σ ≤ 1 - t.mean :=
  le_min_iff.mp (mul_le_of_le_one_left t.room_bounds.1 h1)

/-- Moved shares keep their order. -/
theorem moved_mono {σ : ℚ} (h0 : 0 ≤ σ) : Monotone (t.moved σ) := fun p q h => by
  have hreach := t.reach_nonneg h0
  have hspread := sub_nonneg.mpr t.least_le_greatest
  rw [moved, moved]
  gcongr

/-- The levels of a saturation, where a grey colour has none. -/
theorem moved_least (σ : ℚ) : t.moved σ t.least = t.mean - t.reach σ := by
  rw [moved, sub_self, zero_div, mul_zero, add_zero]

theorem moved_greatest {σ : ℚ} (hgrey : t.bottom = t.top → σ = 0) :
    t.moved σ t.greatest = t.mean + t.reach σ := by
  rcases lt_or_eq_of_le t.bottom_le_top with h | h
  · have hgap := gap_le h
    rw [moved, div_self (by linarith)]
    ring
  · rw [moved, hgrey h, reach_zero]
    ring

/-- Between the levels of the exact saturation a share stands where it did. -/
theorem moved_exactSaturation {q : ℚ} (h0 : t.least ≤ q) (h1 : q ≤ t.greatest) :
    t.moved t.exactSaturation q = q := by
  have hspread := t.spread_eq_reach
  have hbase : t.mean - t.reach t.exactSaturation = t.least := by
    rw [mean]
    linarith
  rw [moved, ← hspread, hbase]
  rcases lt_or_eq_of_le t.least_le_greatest with h | h
  · rw [mul_div_cancel₀ _ (by linarith)]
    ring
  · rw [← h, sub_self, zero_mul]
    linarith

/-- Between the levels of close saturations a share stands nearly at one place. -/
theorem abs_moved_sub_le {q σ τ ε : ℚ} (h0 : t.least ≤ q) (h1 : q ≤ t.greatest)
    (h : |σ - τ| ≤ ε) : |t.moved σ q - t.moved τ q| ≤ ε := by
  have hreach := t.abs_reach_sub_le h
  have hw0 : 0 ≤ (q - t.least) / (t.greatest - t.least) :=
    div_nonneg (by linarith) (by linarith)
  have hw1 : (q - t.least) / (t.greatest - t.least) ≤ 1 :=
    div_le_one_of_le₀ (by linarith) (by linarith)
  have hside : |2 * ((q - t.least) / (t.greatest - t.least)) - 1| ≤ 1 :=
    abs_le.mpr ⟨by linarith, by linarith⟩
  have hsplit : t.moved σ q - t.moved τ q =
      (t.reach σ - t.reach τ) * (2 * ((q - t.least) / (t.greatest - t.least)) - 1) := by
    rw [moved, moved]
    ring
  rw [hsplit, abs_mul]
  have hε : 0 ≤ ε := (abs_nonneg _).trans h
  have := mul_le_mul hreach hside (abs_nonneg _) (by linarith)
  linarith

/-- The intensities of a colour whose saturation is replaced. -/
def withSaturation (x : Single) : Rgb := { t.shares.toHsl with saturation := x }.toRgb

section

variable {t} {x : Single} {σ : ℚ} (hx : x.Denotes σ) (h0 : 0 ≤ σ) (h1 : σ ≤ 1)
include hx h0 h1

theorem near_high_withSaturation :
    Near ({ t.shares.toHsl with saturation := x } : Hsl).high (t.mean + t.reach σ)
      (20 * roundoff) := by
  have hm0 := t.mean_nonneg
  have hm1 := t.mean_le_one
  have hsmall := roundoff_le
  have hlight : Near t.shares.lightness t.mean (5 * roundoff) := t.near_lightness
  have hmean : |t.mean| ≤ 1 := (abs_of_nonneg hm0).trans_le hm1
  have hσ : |σ| ≤ 1 := (abs_of_nonneg h0).trans_le h1
  show Near (if t.shares.lightness < half then t.shares.lightness * (1 + x)
    else t.shares.lightness + x - t.shares.lightness * x) _ _
  split_ifs with hdark
  · have hle := t.mean_le_half_of_not_lt (t.not_half_lt hdark)
    have hone := (denotes_one.near le_rfl).add 1 (hx.near le_rfl) (ε := 2 * roundoff)
      (by rw [abs_of_nonneg (by linarith)]; linarith) (by linarith) (by omega)
    have hone2 : |1 + σ| ≤ 2 := by
      rw [abs_of_nonneg (by linarith)]
      linarith
    have hprod := hlight.mul 2 hone hmean hone2 (ε := 20 * roundoff) (by norm_num [roundoff])
      (by norm_num [roundoff]) (by omega)
    have hlevel : t.mean * (1 + σ) = t.mean + t.reach σ := by
      rw [t.reach_of_dark hle]
      ring
    rwa [hlevel] at hprod
  · have hle := t.half_le_mean_of_not_lt hdark
    have hsum := hlight.add 2 (hx.near le_rfl) (ε := 9 * roundoff)
      (by rw [abs_of_nonneg (by linarith)]; linarith) (by linarith) (by omega)
    have hprod := hlight.mul 1 (hx.near le_rfl) hmean hσ (ε := 8 * roundoff)
      (by norm_num [roundoff]) (by norm_num [roundoff]) (by omega)
    have hlevel : t.mean + σ - t.mean * σ = t.mean + t.reach σ := by
      rw [t.reach_of_bright hle]
      ring
    rcases t.reach_le h1 with ⟨-, hreach⟩
    have hreach0 := t.reach_nonneg h0
    have hdiff := hsum.sub 1 hprod (ε := 20 * roundoff)
      (by rw [hlevel, abs_of_nonneg (by linarith)]; linarith) (by linarith [roundoff_pos])
      (by omega)
    rwa [hlevel] at hdiff

/-- The levels of another saturation. -/
theorem nearLevels_withSaturation :
    NearLevels ({ t.shares.toHsl with saturation := x } : Hsl).low
      ({ t.shares.toHsl with saturation := x } : Hsl).high (t.mean - t.reach σ)
      (2 * t.reach σ) := by
  have hm0 := t.mean_nonneg
  have hm1 := t.mean_le_one
  have hpos := roundoff_pos
  have hsmall := roundoff_le
  rcases t.reach_le h1 with ⟨hlow, hhigh⟩
  have hreach := t.reach_nonneg h0
  have hnear := near_high_withSaturation (t := t) hx h0 h1
  have hlight : Near t.shares.lightness t.mean (5 * roundoff) := t.near_lightness
  have hdouble := (denotes_two.near le_rfl).mul 2 hlight (le_abs_self 2)
    ((abs_of_nonneg hm0).trans_le hm1) (ε := 15 * roundoff) (by norm_num [roundoff])
    (by norm_num [roundoff]) (by omega)
  have hleast : 2 * t.mean - (t.mean + t.reach σ) = t.mean - t.reach σ := by ring
  have hdiff := hdouble.sub 1 hnear (ε := 40 * roundoff)
    (by rw [hleast, abs_of_nonneg (by linarith)]; linarith) (by linarith) (by omega)
  rw [hleast] at hdiff
  have hgreatest : t.mean - t.reach σ + 2 * t.reach σ = t.mean + t.reach σ := by ring
  exact {
    low := hdiff.mono (by linarith)
    high := by
      rw [hgreatest]
      exact hnear.mono (by linarith)
    least_nonneg := by linarith
    spread_nonneg := by linarith
    greatest_le_one := by linarith }

/-- Away from grey the intensities at the three turns are near the moved shares: the waves at the
    place of the colour tell where between the levels each share stands, whatever the levels. -/
theorem near_withSaturation_of_lt (h : t.bottom < t.top) (hzero : x.isZero = false) :
    Near (t.withSaturation x).red (t.moved σ t.r) (29000 * roundoff) ∧
      Near (t.withSaturation x).green (t.moved σ t.g) (29000 * roundoff) ∧
      Near (t.withSaturation x).blue (t.moved σ t.b) (29000 * roundoff) := by
  have hpos := roundoff_pos
  rcases place_mem h with ⟨hp0, hp6⟩
  rcases near_turns h with ⟨hred, hblue⟩
  have hgreen := (near_hue h).mono (by linarith : 350 * roundoff ≤ 360 * roundoff)
  have hlevels := nearLevels_withSaturation (t := t) hx h0 h1
  have hspread : 0 < t.greatest - t.least := by linarith [gap_le h]
  have hwave := isPlaceOf_circlePlace (r := t.r) (g := t.g) (b := t.b) (by rwa [t.spreadOf_eq])
  rw [IsPlaceOf, t.spreadOf_eq, t.min_shares, ← place] at hwave
  rcases hwave with ⟨hr, hg, hb⟩
  have hheight {q w : ℚ} (hq : t.least + (t.greatest - t.least) * w = q) :
      t.moved σ q = t.mean - t.reach σ + 2 * t.reach σ * w := by
    rw [moved, ← hq, add_sub_cancel_left, mul_div_cancel_left₀ _ hspread.ne']
  rw [hheight hr, hheight hg, hheight hb, withSaturation, Hsl.toRgb, if_neg (by simp [hzero])]
  exact ⟨hlevels.intensity hred (by linarith) (by linarith),
    hlevels.intensity hgreen (by linarith) (by linarith),
    hlevels.intensity hblue (by linarith) (by linarith)⟩

/-- The intensities of another saturation are near the moved shares. -/
theorem near_withSaturation (hgrey : t.bottom = t.top → σ = 0) :
    Near (t.withSaturation x).red (t.moved σ t.r) (29000 * roundoff) ∧
      Near (t.withSaturation x).green (t.moved σ t.g) (29000 * roundoff) ∧
      Near (t.withSaturation x).blue (t.moved σ t.b) (29000 * roundoff) := by
  by_cases hzero : σ = 0
  · -- Without saturation all three are the lightness.
    have hlight : Near t.shares.lightness t.mean (29000 * roundoff) :=
      t.near_lightness.mono (by linarith [roundoff_pos])
    have hlevel (q : ℚ) : t.moved σ q = t.mean := by
      rw [moved, hzero, reach_zero]
      ring
    rw [hlevel, hlevel, hlevel, withSaturation, Hsl.toRgb, if_pos (hx.isZero_iff.mpr hzero)]
    exact ⟨hlight, hlight, hlight⟩
  · have hlt : t.bottom < t.top :=
      lt_of_le_of_ne t.bottom_le_top fun heq => hzero (hgrey heq)
    have hsome : x.isZero = false := by
      rw [Bool.eq_false_iff, ne_eq, hx.isZero_iff]
      exact hzero
    exact near_withSaturation_of_lt hx h0 h1 hlt hsome

end

end ByteColour

end Darkroom
