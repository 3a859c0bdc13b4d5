import Darkroom.Proofs.Numeric.Nearness
import Darkroom.Tone.Adjustment

/-!
# Bytes as Shares

Samples of 8 bits become shares of the greatest one, and shares become samples again.

A share is the nearest number to `n / 255`, so it strays by one roundoff. On the way back a share
may stray a good deal further, by more than one part in six hundred, before the nearest sample
changes. That is the room that the conversions between colour models have.

## Main definitions

* `shareValue`: The share of a sample, rounded.

## Theorems

* `denotes_whole`: Small whole numbers are kept as they are.
* `near_toUnit`: A sample as a share.
* `shareValue_lt`: Samples that differ have different shares.
* `byteOfUnit_near`: A number near a share becomes a sample near it.
* `byteOfUnit_eq_of_near`: A share near that of a sample becomes the sample.
* `near_third`, `near_sixth`, `near_twoThirds`: The constants of the colour circle.
-/

namespace Darkroom

open Binary

theorem roundoff_pos : 0 < roundoff := by norm_num [roundoff]

theorem roundoff_le : roundoff ≤ 1 / 33000000 := by norm_num [roundoff]

/-- Whole numbers of so many bits are kept as they are. -/
theorem denotes_whole (n : ℕ) (h : n ≤ 2 ^ 24) : (OfNat.ofNat n : Single).Denotes n := by
  refine denotes_ofNat n h (by decide) (le_trans ?_ greatest_binary32)
  exact_mod_cast h.trans (by norm_num)

theorem denotes_one : (1 : Single).Denotes 1 := by exact_mod_cast denotes_whole 1 (by norm_num)

theorem denotes_two : (2 : Single).Denotes 2 := by exact_mod_cast denotes_whole 2 (by norm_num)

theorem denotes_six : (6 : Single).Denotes 6 := by exact_mod_cast denotes_whole 6 (by norm_num)

theorem denotes_lastByte : (255 : Single).Denotes 255 := denotes_whole 255 (by norm_num)

/-- Rounding keeps numbers between zero and one there. -/
theorem round_unit {v : ℚ} (h0 : 0 ≤ v) (h1 : v ≤ 1) :
    0 ≤ binary32.round v ∧ binary32.round v ≤ 1 ∧ |binary32.round v - v| ≤ roundoff ∧
      |binary32.round v| ≤ binary32.greatest := by
  have hsize : |v| ≤ 2 ^ 0 := by rwa [abs_of_nonneg h0, pow_zero]
  have herr := abs_round_sub_le_roundoff 0 hsize
  rw [pow_zero, one_mul] at herr
  exact ⟨BinaryFormat.le_round_of_le BinaryFormat.representable_zero h0,
    BinaryFormat.round_le_of_le denotes_one.representable h1, herr,
    abs_round_le_greatest 0 (by norm_num) hsize⟩

theorem share_unit {n : ℕ} (h : n ≤ 255) : 0 ≤ (n : ℚ) / 255 ∧ (n : ℚ) / 255 ≤ 1 := by
  have hn : (n : ℚ) ≤ 255 := by exact_mod_cast h
  exact ⟨by positivity, (div_le_one (by norm_num)).mpr hn⟩

/-- The value of the share of a sample. -/
def shareValue (n : ℕ) : ℚ := binary32.round (n / 255)

theorem abs_shareValue_sub_le {n : ℕ} (h : n ≤ 255) : |shareValue n - n / 255| ≤ roundoff :=
  (round_unit (share_unit h).1 (share_unit h).2).2.2.1

theorem denotes_toUnit {n : ℕ} (h : n ≤ 255) : (toUnit (ofInt n)).Denotes (shareValue n) := by
  have hn : (ofInt n : Single).Denotes n := denotes_whole n (h.trans (by norm_num))
  exact hn.div denotes_lastByte (by norm_num) (round_unit (share_unit h).1 (share_unit h).2).2.2.2

/-- A sample of 8 bits as a share of the greatest one. -/
theorem near_toUnit {n : ℕ} (h : n ≤ 255) : Near (toUnit (ofInt n)) (n / 255) roundoff :=
  ⟨_, denotes_toUnit h, abs_shareValue_sub_le h⟩

theorem shareValue_mono : Monotone shareValue := fun m n h =>
  BinaryFormat.round_mono (by gcongr)

/-- Samples that differ have shares that differ by nearly a 255th. -/
theorem shareValue_lt {m n : ℕ} (h : m < n) (hn : n ≤ 255) : shareValue m < shareValue n := by
  have hm := (abs_le.mp (abs_shareValue_sub_le (h.le.trans hn))).2
  have hn := (abs_le.mp (abs_shareValue_sub_le hn)).1
  have hgap : (m : ℚ) + 1 ≤ n := by exact_mod_cast h
  have hsmall := roundoff_le
  linarith

/-- Scaled by 255, a number near a share strays by less than a half; rounding it to a whole number
    adds another half. Cutting off what is not a sample does not add to the distance. -/
theorem byteOfUnit_near {x : Single} {q : ℚ} (hx : Near x q (1 / 600)) (h0 : 0 ≤ q) (h1 : q ≤ 1) :
    byteOfUnit x ≤ 255 ∧ |(byteOfUnit x : ℚ) - 255 * q| ≤ 19 / 20 := by
  have hshare : |q| ≤ 1 := (abs_of_nonneg h0).trans_le h1
  rcases hx.mul 8 (denotes_lastByte.near le_rfl) hshare (le_abs_self _) (by norm_num) (ε := 9 / 20)
    (by norm_num [roundoff]) (by omega) with ⟨v, hv, hd⟩
  have hround : |(roundEven v : ℚ) - 255 * q| ≤ 19 / 20 := by
    rw [mul_comm q] at hd
    have := abs_sub_le (roundEven v : ℚ) v (255 * q)
    linarith [abs_roundEven_sub_le v]
  rcases abs_le.mp hround with ⟨hlow, hhigh⟩
  have hfit : |(roundEven v : ℚ)| ≤ binary32.greatest := by
    refine le_trans (abs_le.mpr ⟨?_, ?_⟩) greatest_binary32 <;> linarith
  have hwhole := hv.roundToIntegral (by decide) hfit
  have hclamp := hwhole.clamp denotes_ofNat_zero denotes_lastByte (by norm_num)
  have hcast : max 0 (min 255 (roundEven v : ℚ)) = ((max 0 (min 255 (roundEven v)) : ℤ) : ℚ) := by
    push_cast
    rfl
  rw [hcast] at hclamp
  have hbyte : (byteOfUnit x : ℤ) = max 0 (min 255 (roundEven v)) := by
    rw [byteOfUnit, hclamp.truncate?, Option.getD_some]
    omega
  refine ⟨by omega, ?_⟩
  rw [← Int.cast_natCast, hbyte, abs_le]
  -- Below zero and above 255 the sample lies between the rounded number and the share.
  rcases lt_or_ge (roundEven v) 0 with hneg | hnonneg
  · have hle : (roundEven v : ℚ) ≤ 0 := by exact_mod_cast hneg.le
    rw [max_eq_left (by omega), Int.cast_zero]
    exact ⟨by linarith, by linarith⟩
  rcases lt_or_ge 255 (roundEven v) with hbig | hsmall
  · have hge : (255 : ℚ) ≤ roundEven v := by exact_mod_cast hbig.le
    rw [min_eq_left hbig.le, max_eq_right (by norm_num), Int.cast_ofNat]
    exact ⟨by linarith, by linarith⟩
  · rw [min_eq_right hsmall, max_eq_right hnonneg]
    exact ⟨hlow, hhigh⟩

/-- A share near that of a sample becomes the sample. -/
theorem byteOfUnit_eq_of_near {x : Single} {n : ℕ} (h : n ≤ 255) (hx : Near x (n / 255) (1 / 600)) :
    byteOfUnit x = n := by
  rcases byteOfUnit_near hx (share_unit h).1 (share_unit h).2 with ⟨-, hd⟩
  rw [mul_div_cancel₀ _ (by norm_num : (255 : ℚ) ≠ 0)] at hd
  -- Two whole numbers that are less than one apart are equal.
  have hlt : |((byteOfUnit x : ℤ) : ℚ) - ((n : ℤ) : ℚ)| < 1 := by
    push_cast
    linarith
  have hzero : |(byteOfUnit x : ℤ) - n| < 1 := by exact_mod_cast hlt
  rw [Int.abs_lt_one_iff] at hzero
  omega

/-- A proper fraction is kept with one rounding. -/
theorem near_ofRatio (num den : ℕ) (hden : 0 < den) (h : num ≤ den) :
    Near (ofRatio false num den 0) (num / den) roundoff := by
  have hshare : |(num : ℚ) / den| ≤ 2 ^ 0 := by
    rw [abs_of_nonneg (by positivity), pow_zero, div_le_one (by exact_mod_cast hden)]
    exact_mod_cast h
  have hd := ofRatio_denotes (s := false) (e := 0) hden (q := num / den)
    (by rw [zpow_zero, mul_one]; rfl) (abs_round_le_greatest 0 (by norm_num) hshare)
  exact near_of_denotes_round 0 hd (by rw [sub_self, abs_zero]) hshare (by norm_num)

theorem denotes_half : half.Denotes (1 / 2) := by
  have hr : binary32.Representable ((2 : ℚ) ^ (-1 : ℤ)) :=
    BinaryFormat.representable_two_zpow (by decide)
  have hfraction : (2 : ℚ) ^ (-1 : ℤ) = (signed false 1 : ℤ) / (2 : ℕ) * 2 ^ (0 : ℤ) := by
    norm_num [signed]
  have hd := ofRatio_denotes_of_representable (s := false) (by norm_num) hfraction hr
    (le_trans (by norm_num) greatest_binary32)
  norm_num at hd
  exact hd

theorem near_third : Near third (1 / 3) roundoff := by
  exact_mod_cast near_ofRatio 1 3 (by norm_num) (by norm_num)

theorem near_sixth : Near sixth (1 / 6) roundoff := by
  exact_mod_cast near_ofRatio 1 6 (by norm_num) (by norm_num)

theorem near_twoThirds : Near twoThirds (2 / 3) roundoff := by
  exact_mod_cast near_ofRatio 2 3 (by norm_num) (by norm_num)

end Darkroom
