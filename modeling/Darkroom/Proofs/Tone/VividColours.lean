import Darkroom.Proofs.Numeric.Nearness
import Darkroom.Proofs.Tone.KnobOrder

/-!
# Vivid Colours

The second knob favours dull colours, and keeps them duller than vivid ones.

Without roundings the second step multiplies a saturation by `boost`, a line that sinks to one at
the greatest saturation. So the boost favours what is dull. The product is a parabola, and it rises
as far as one as long as the knob is within its nominal range. At a knob of one it becomes flat
there, so that nothing is left over for the roundings.

These move a result by a small part of the saturation itself, as long as it is not so small that the
product runs out of bits. Three of them are in the factor, which is not greater than two, and the
last one is in the product. A distance that is relative to the saturation serves both the products
and their quotients by the saturations.

## Main definitions

* `boost`: The factor of the second step before any rounding.

## Theorems

* `boost_anti`: It favours dull colours.
* `mul_boost_mono`: It keeps the order of saturations.
* `abs_blended_sub_boost_le`: The second step comes close to it.
* `Adjustment.isFinite_of_nominal`: Knobs in their nominal range stand for finite factors.
* `Adjustment.vibrance_protects_vivid`: Both properties, for the numbers that come out.
-/

namespace Darkroom

open Binary

/-- The factor of the second step before any rounding. -/
def boost (w s : ℚ) : ℚ := 1 + w * (1 - s)

section

variable {w s t : ℚ}

theorem boost_one (w : ℚ) : boost w 1 = 1 := by
  rw [boost, sub_self, mul_zero, add_zero]

/-- A knob above zero boosts what is dull by more. -/
theorem boost_anti (hw : 0 ≤ w) (hst : s ≤ t) : boost w t ≤ boost w s :=
  add_le_add_right (mul_le_mul_of_nonneg_left (sub_le_sub_left hst 1) hw) 1

/-- A factor never takes away more of a saturation than the saturation leaves to one. -/
theorem le_boost (hw : -1 ≤ w) (h1 : s ≤ 1) : s ≤ boost w s := by
  have hrest := mul_le_mul_of_nonneg_right hw (sub_nonneg.mpr h1)
  rw [boost]
  linarith

/-- The boost keeps the order of saturations. The difference of the products has that of the
    saturations as a factor, and the other factor is not negative, since no saturation is further
    than one from the mirror image of another. -/
theorem mul_boost_mono (hw : |w| ≤ 1) (h0 : 0 ≤ s) (hst : s ≤ t) (h1 : t ≤ 1) :
    s * boost w s ≤ t * boost w t := by
  have hdifference : t * boost w t - s * boost w s = (t - s) * (1 + w * (1 - s - t)) := by
    rw [boost, boost]
    ring
  have hmirror : |1 - s - t| ≤ 1 := abs_le.mpr ⟨by linarith, by linarith⟩
  have hslope : |w * (1 - s - t)| ≤ 1 := by
    rw [abs_mul]
    exact mul_le_one₀ hw (abs_nonneg _) hmirror
  have hproduct : 0 ≤ (t - s) * (1 + w * (1 - s - t)) :=
    mul_nonneg (by linarith) (by linarith [(abs_le.mp hslope).1])
  linarith

theorem mul_boost_le_one (hw : |w| ≤ 1) (h0 : 0 ≤ s) (h1 : s ≤ 1) : s * boost w s ≤ 1 := by
  have hle := mul_boost_mono hw h0 h1 le_rfl
  rwa [boost_one, one_mul] at hle

/-- The factor of the second step is made with three roundings, of which the last is of a number up
    to two. -/
theorem abs_weighted_sub_boost_le (hw : |w| ≤ 1) (h0 : 0 ≤ s) (h1 : s ≤ 1) :
    |weighted w s - boost w s| ≤ 4 * roundoff := by
  have hrest : |1 - s| ≤ 1 := abs_le.mpr ⟨by linarith, by linarith⟩
  have hround : |binary32.round (1 - s)| ≤ 1 :=
    BinaryFormat.abs_round_le isShare_one.representable hrest
  have hamount : |w * binary32.round (1 - s)| ≤ 1 := by
    rw [abs_mul]
    exact mul_le_one₀ hw (abs_nonneg _) hround
  have hkept : |binary32.round (w * binary32.round (1 - s))| ≤ 1 :=
    BinaryFormat.abs_round_le isShare_one.representable hamount
  have hsum : |1 + binary32.round (w * binary32.round (1 - s))| ≤ 2 ^ 1 := by
    rw [abs_le] at hkept ⊢
    constructor <;> linarith
  -- What the first rounding adds is multiplied by the knob.
  have hfirst : |w * binary32.round (1 - s) - w * (1 - s)| ≤ roundoff := by
    have hmoved := abs_round_sub_le_roundoff 0 (hrest.trans_eq (pow_zero 2).symm)
    rw [pow_zero, one_mul] at hmoved
    rw [← mul_sub, abs_mul]
    exact (mul_le_of_le_one_left (abs_nonneg _) hw).trans hmoved
  have hsecond := abs_round_sub_le_roundoff 0 (hamount.trans_eq (pow_zero 2).symm)
  have hthird := abs_round_sub_le_roundoff 1 hsum
  rw [weighted, boost]
  rw [abs_le] at hfirst hsecond hthird ⊢
  constructor <;> linarith

/-- The factor of the second step is at most two. -/
theorem weighted_le_two (hw : w ≤ 1) (h0 : 0 ≤ s) (h1 : s ≤ 1) : weighted w s ≤ 2 := by
  have htwo : binary32.Representable 2 := BinaryFormat.representable_intCast (by decide) (by decide)
  have hrest : binary32.round (1 - s) ≤ 1 :=
    BinaryFormat.round_le_of_le isShare_one.representable (by linarith)
  have hgreatest : binary32.round (1 * binary32.round (1 - s)) ≤ 1 :=
    BinaryFormat.round_le_of_le isShare_one.representable (by rwa [one_mul])
  calc weighted w s ≤ weighted 1 s := weighted_mono h1 hw
    _ ≤ 2 := BinaryFormat.round_le_of_le htwo (by linarith)

/-- The rounding of the product is relative to the saturation, because the product is not too small
    for that and the factor is at most two. -/
theorem abs_round_mul_weighted_sub_le (hs : 1 / 255 ≤ s) (h1 : s ≤ 1) (hw : |w| ≤ 1) :
    |binary32.round (s * weighted w s) - s * weighted w s| ≤ 4 * roundoff * s := by
  have h0 : 0 ≤ s := by linarith
  rcases abs_le.mp hw with ⟨hlow, hhigh⟩
  have hfactor : 1 / 2 ^ 10 ≤ weighted w s := by
    have hboost := le_boost hlow h1
    have hbelow := (abs_le.mp (abs_weighted_sub_boost_le hw h0 h1)).1
    rw [roundoff] at hbelow
    linarith
  have hproduct : 1 / 2 ^ 10 * (1 / 2 ^ 10) ≤ s * weighted w s :=
    mul_le_mul (by linarith) hfactor (by norm_num) h0
  have habs : |s * weighted w s| = s * weighted w s := abs_of_nonneg (by linarith)
  have hround := abs_round_sub_le_roundoff_mul (q := s * weighted w s) (by rw [habs]; linarith)
  have hsize : s * weighted w s ≤ s * 2 :=
    mul_le_mul_of_nonneg_left (weighted_le_two hhigh h0 h1) h0
  calc |binary32.round (s * weighted w s) - s * weighted w s|
      ≤ 2 * roundoff * (s * weighted w s) := by rwa [habs] at hround
    _ ≤ 2 * roundoff * (s * 2) := mul_le_mul_of_nonneg_left hsize (by norm_num [roundoff])
    _ = 4 * roundoff * s := by ring

/-- The second step comes close to the boost, relative to the saturation. -/
theorem abs_blended_sub_boost_le (hs : IsShare s) (hw : |w| ≤ 1) (hbyte : 1 / 255 ≤ s) :
    |blended 1 w s - s * boost w s| ≤ 8 * roundoff * s := by
  have hround := abs_round_mul_weighted_sub_le hbyte hs.le_one hw
  have hfactors : |s * weighted w s - s * boost w s| ≤ 4 * roundoff * s := by
    rw [← mul_sub, abs_mul, abs_of_nonneg hs.nonneg, mul_comm]
    exact mul_le_mul_of_nonneg_right (abs_weighted_sub_boost_le hw hs.nonneg hs.le_one) hs.nonneg
  have hboost : 0 ≤ boost w s := hs.nonneg.trans (le_boost (abs_le.mp hw).1 hs.le_one)
  -- The boosted saturation is a share, so that what is cut off was astray.
  have hcut := abs_stepped_sub_le (c := weighted w s) (s := s) (mul_nonneg hs.nonneg hboost)
    (mul_boost_le_one hw hs.nonneg hs.le_one)
  calc |blended 1 w s - s * boost w s| = |stepped (weighted w s) s - s * boost w s| := by
        rw [blended, stepped_one hs]
    _ ≤ |binary32.round (s * weighted w s) - s * boost w s| := hcut
    _ ≤ 8 * roundoff * s := by
        have := abs_sub_le (binary32.round (s * weighted w s)) (s * weighted w s) (s * boost w s)
        linarith

end

namespace Adjustment

variable {a : Adjustment} {p q : ℚ}

theorem abs_vibranceValue_le (hq : |q| ≤ 1) : |vibranceValue q| ≤ 1 :=
  BinaryFormat.abs_round_le isShare_one.representable
    (BinaryFormat.abs_round_le denotes_one_double.representable hq)

/-- Knobs in their nominal range stand for finite factors. -/
theorem isFinite_of_nominal (hp : a.saturation.Denotes p) (hq : a.vibrance.Denotes q)
    (hp1 : |p| ≤ 1) (hq1 : |q| ≤ 1) : a.IsFinite := by
  have hone (r : ℚ) (h : |r| ≤ 1) : |binary64.round r| ≤ 1 :=
    BinaryFormat.abs_round_le denotes_one_double.representable h
  have hgreatest : 1 ≤ binary64.greatest := BinaryFormat.one_le_greatest (by decide)
  rcases hp.exists_toDouble ((hone p hp1).trans hgreatest) with ⟨x, hx, hxp⟩
  rcases hq.exists_toDouble ((hone q hq1).trans hgreatest) with ⟨y, hy, hyq⟩
  have htwo : binary64.Representable 2 := BinaryFormat.representable_intCast (by decide) (by decide)
  have hsum : |binary64.round (1 + binary64.round p)| ≤ 2 ^ 1 := by
    refine (BinaryFormat.abs_round_le htwo ?_).trans_eq (pow_one 2).symm
    have hknob := abs_le.mp (hone p hp1)
    exact abs_le.mpr ⟨by linarith, by linarith⟩
  have hscale := (denotes_one_add hxp).convert (abs_round_le_greatest 1 (by norm_num) hsum)
  refine ⟨⟨x, hx, hscale.1⟩, ⟨y, hy, ?_⟩⟩
  exact (hyq.convert (abs_round_le_greatest 0 (by norm_num)
    ((hone q hq1).trans_eq (pow_zero 2).symm))).1

/-- The second knob alone protects vivid colours and keeps their order. For every knob in its
    nominal range and every two saturations from that of a single step of a byte on, the greater one
    does not come out below the other by more than a few roundings; and if the knob is above zero,
    it does not grow by a greater part, within a few roundings again. -/
theorem vibrance_protects_vivid (a : Adjustment) (q : ℚ) (hp : a.saturation.Denotes 0)
    (hq : a.vibrance.Denotes q) (hq1 : |q| ≤ 1) (x y : Single) (s t : ℚ) (hx : x.Denotes s)
    (hy : y.Denotes t) (hs : 1 / 255 ≤ s) (hst : s ≤ t) (ht : t ≤ 1) :
    ∃ u v, a.Makes x u ∧ a.Makes y v ∧ (0 < q → v / t - 1 / 2 ^ 20 ≤ u / s) ∧
      u ≤ v + 1 / 2 ^ 20 := by
  have hs0 : 0 < s := by linarith
  have ht0 : 0 < t := by linarith
  have hshare : IsShare s := ⟨hx.representable, hs0.le, hst.trans ht⟩
  have hshare' : IsShare t := ⟨hy.representable, ht0.le, ht⟩
  have ha := isFinite_of_nominal hp hq (abs_zero.trans_le zero_le_one) hq1
  have hw := abs_vibranceValue_le hq1
  have hu := abs_le.mp (abs_blended_sub_boost_le hshare hw hs)
  have hv := abs_le.mp (abs_blended_sub_boost_le hshare' hw (hs.trans hst))
  have hsmall : 16 * roundoff ≤ 1 / 2 ^ 20 := by norm_num [roundoff]
  refine ⟨_, _, makes_blended ha hp hq hx hshare, makes_blended ha hp hq hy hshare',
    fun hpos => ?_, ?_⟩
  · rw [scaleValue_zero]
    have hboost := boost_anti (vibranceValue_nonneg hpos.le) hst
    have hdull : boost (vibranceValue q) s - 8 * roundoff ≤
        blended 1 (vibranceValue q) s / s := by
      rw [le_div_iff₀ hs0]
      linarith
    have hvivid : blended 1 (vibranceValue q) t / t ≤
        boost (vibranceValue q) t + 8 * roundoff := by
      rw [div_le_iff₀ ht0]
      linarith
    linarith
  · rw [scaleValue_zero]
    have hle := mul_boost_mono hw hs0.le hst ht
    have hless : 8 * roundoff * s ≤ 8 * roundoff :=
      mul_le_of_le_one_right (by norm_num [roundoff]) hshare.le_one
    have hless' : 8 * roundoff * t ≤ 8 * roundoff :=
      mul_le_of_le_one_right (by norm_num [roundoff]) ht
    linarith

/-- The greatest knob at one half and at one, where the parabola is flat. -/
theorem vibrance_protects_vivid_half :
    ∃ u v, Makes ⟨.whole 0, .whole 1⟩ half u ∧ Makes ⟨.whole 0, .whole 1⟩ 1 v ∧
      v / 1 - 1 / 2 ^ 20 ≤ u / (1 / 2) ∧ u ≤ v + 1 / 2 ^ 20 := by
  rcases vibrance_protects_vivid ⟨.whole 0, .whole 1⟩ 1 Int.cast_zero Int.cast_one (by norm_num)
    half 1 (1 / 2) 1 denotes_half denotes_one (by norm_num) (by norm_num) le_rfl with
    ⟨u, v, hu, hv, hfavours, hle⟩
  exact ⟨u, v, hu, hv, hfavours zero_lt_one, hle⟩

end Adjustment

end Darkroom
