import Darkroom.Proofs.Numeric.Magnitude
import Darkroom.Proofs.Tone.ByteShares
import Mathlib.Algebra.Order.Group.MinMax

/-!
# Values of the Two Steps

What the steps of a blend make of a saturation, as functions of values.

A step multiplies and cuts off what is not a share; the second one first makes its factor from what
the saturation leaves to one. Each operation rounds, and rounding keeps the order. So a greater
factor never gives a smaller saturation, exactly and without any distance to allow for. Everything
else about the direction of the steps is a case of this: the factor one leaves a share where it is,
and the weight zero makes the factor one. A step that is left out is one with the factor one.

## Main definitions

* `IsShare`: A value that a saturation may have.
* `stepped`: What is left of a saturation after a step.
* `weighted`: The factor of the second step.
* `blended`: What both steps make of a saturation.

## Theorems

* `exists_isShare`: The numbers that have such a value.
* `denotes_clampUnit_mul`, `denotes_weighted`: The operations, by values.
* `stepped_mono`, `weighted_mono`: A greater factor gives a greater saturation.
* `stepped_of_nonpos`: Nothing is left after a factor that is not above zero.
* `blended_mono`: The same of both steps, for a greater weight.
-/

namespace Darkroom

open Binary

/-- A number of the format between zero and one. -/
structure IsShare (s : ℚ) : Prop where
  representable : binary32.Representable s
  nonneg : 0 ≤ s
  le_one : s ≤ 1

/-- What a step with the factor `c` makes of a saturation. -/
def stepped (c s : ℚ) : ℚ := max 0 (min 1 (binary32.round (s * c)))

/-- The factor of the second step: the knob's own factor `w` counts as much as the saturation leaves
    to one. -/
def weighted (w s : ℚ) : ℚ := binary32.round (1 + binary32.round (w * binary32.round (1 - s)))

/-- What both steps make of a saturation. -/
def blended (c w s : ℚ) : ℚ := stepped (weighted w (stepped c s)) (stepped c s)

/-- A number that compares as lying between zero and one has a share as its value. -/
theorem exists_isShare {x : Single} (h0 : 0 ≤ x) (h1 : x ≤ 1) : ∃ s, x.Denotes s ∧ IsShare s := by
  have hvalue : x.Denotes x.toRat := by
    cases x with
    | nan => cases h0
    | infinite s =>
      -- Minus infinity fails the first comparison, and plus infinity the second.
      cases s with
      | false => cases h1
      | true => cases h0
    | finite s m e hc => exact ⟨rfl, rfl⟩
  exact ⟨_, hvalue, hvalue.representable, (denotes_ofNat_zero.le_iff hvalue).mp h0,
    (hvalue.le_iff denotes_one).mp h1⟩

section

variable {x factor : Single} {s c w : ℚ} (hx : x.Denotes s) (hs : IsShare s)
include hx hs

/-- A step multiplies by a factor and cuts off what is not a share. -/
theorem denotes_clampUnit_mul (hc : factor.Denotes c) :
    (clampUnit (x * factor)).Denotes (stepped c s) := by
  have hproduct := hx.share_mul hc (by rw [abs_of_nonneg hs.nonneg]; exact hs.le_one)
  exact hproduct.clamp denotes_ofNat_zero denotes_one zero_le_one

/-- The factor of the second step. -/
theorem denotes_weighted (hw : factor.Denotes w) :
    (1 + factor * (1 - x)).Denotes (weighted w s) := by
  rcases round_unit (v := 1 - s) (by linarith [hs.le_one]) (by linarith [hs.nonneg]) with
    ⟨hr0, hr1, -, hfit⟩
  have hrest := denotes_one.sub hx hfit
  have hamount := hw.mul_share hrest (by rwa [abs_of_nonneg hr0])
  exact hamount.one_add denotes_one (by decide)

end

theorem isShare_zero : IsShare 0 := ⟨BinaryFormat.representable_zero, le_rfl, zero_le_one⟩

theorem isShare_one : IsShare 1 := ⟨denotes_one.representable, zero_le_one, le_rfl⟩

variable {c d s w z : ℚ}

/-- Whatever the factor is, a share comes out. -/
theorem isShare_stepped (c s : ℚ) : IsShare (stepped c s) where
  representable := by
    unfold stepped
    rcases max_choice 0 (min 1 (binary32.round (s * c))) with h | h
    · rw [h]
      exact isShare_zero.representable
    · rw [h]
      rcases min_choice 1 (binary32.round (s * c)) with h | h
      · rw [h]
        exact isShare_one.representable
      · rw [h]
        exact BinaryFormat.representable_round _
  nonneg := le_max_left _ _
  le_one := max_le zero_le_one (min_le_left _ _)

theorem stepped_mono (h0 : 0 ≤ s) (h : c ≤ d) : stepped c s ≤ stepped d s :=
  max_le_max le_rfl (min_le_min le_rfl
    (BinaryFormat.round_mono (mul_le_mul_of_nonneg_left h h0)))

/-- Cutting off brings no result further away from a share. -/
theorem abs_stepped_sub_le (h0 : 0 ≤ z) (h1 : z ≤ 1) :
    |stepped c s - z| ≤ |binary32.round (s * c) - z| := by
  have hbelow := abs_max_sub_max_le_max 0 (min 1 (binary32.round (s * c))) 0 z
  have habove := abs_min_sub_min_le_max 1 (binary32.round (s * c)) 1 z
  rw [max_eq_right h0, sub_self, abs_zero, max_eq_right (b := |_ - z|) (abs_nonneg _)] at hbelow
  rw [min_eq_right h1, sub_self, abs_zero, max_eq_right (abs_nonneg _)] at habove
  exact hbelow.trans habove

/-- The factor one leaves a share where it is. -/
theorem stepped_one (hs : IsShare s) : stepped 1 s = s := by
  rw [stepped, mul_one, BinaryFormat.round_of_representable hs.representable, min_eq_right hs.le_one,
    max_eq_right hs.nonneg]

/-- Without saturation no factor makes any. -/
theorem stepped_zero (c : ℚ) : stepped c 0 = 0 := by
  rw [stepped, zero_mul, BinaryFormat.round_zero, min_eq_right zero_le_one, max_self]

/-- Nothing is left after a factor that is not above zero. -/
theorem stepped_of_nonpos (h0 : 0 ≤ s) (hc : c ≤ 0) : stepped c s = 0 := by
  have hround : binary32.round (s * c) ≤ 0 := BinaryFormat.round_le_of_le
    BinaryFormat.representable_zero (mul_nonpos_of_nonneg_of_nonpos h0 hc)
  rw [stepped, min_eq_right (hround.trans zero_le_one), max_eq_left hround]

theorem le_stepped (hs : IsShare s) (hc : 1 ≤ c) : s ≤ stepped c s := by
  have hle := stepped_mono hs.nonneg hc
  rwa [stepped_one hs] at hle

theorem stepped_le (hs : IsShare s) (hc : c ≤ 1) : stepped c s ≤ s := by
  have hle := stepped_mono hs.nonneg hc
  rwa [stepped_one hs] at hle

theorem weighted_mono (h1 : s ≤ 1) (h : w ≤ z) : weighted w s ≤ weighted z s := by
  have hrest : 0 ≤ binary32.round (1 - s) :=
    BinaryFormat.le_round_of_le BinaryFormat.representable_zero (by linarith)
  have hamount := BinaryFormat.round_mono (f := binary32) (mul_le_mul_of_nonneg_right h hrest)
  exact BinaryFormat.round_mono (by linarith)

/-- The weight zero makes the factor one. -/
theorem weighted_zero (s : ℚ) : weighted 0 s = 1 := by
  rw [weighted, zero_mul, BinaryFormat.round_zero, add_zero,
    BinaryFormat.round_of_representable isShare_one.representable]

/-- A saturation of one leaves nothing for the weight to count. -/
theorem weighted_one (w : ℚ) : weighted w 1 = 1 := by
  rw [weighted, sub_self, BinaryFormat.round_zero, mul_zero, BinaryFormat.round_zero, add_zero,
    BinaryFormat.round_of_representable isShare_one.representable]

theorem one_le_weighted (h1 : s ≤ 1) (hw : 0 ≤ w) : 1 ≤ weighted w s := by
  rw [← weighted_zero s]
  exact weighted_mono h1 hw

theorem weighted_le_one (h1 : s ≤ 1) (hw : w ≤ 0) : weighted w s ≤ 1 := by
  rw [← weighted_zero s]
  exact weighted_mono h1 hw

theorem isShare_blended (c w s : ℚ) : IsShare (blended c w s) := isShare_stepped _ _

/-- Without a weight only the first step counts. -/
theorem blended_zero (c s : ℚ) : blended c 0 s = stepped c s := by
  rw [blended, weighted_zero, stepped_one (isShare_stepped c s)]

/-- What the first step has left nothing of, the second one does not bring back. -/
theorem blended_of_stepped (w : ℚ) (h : stepped c s = 0) : blended c w s = 0 := by
  rw [blended, h, stepped_zero]

/-- A saturation of one is kept by every weight. -/
theorem blended_one (w : ℚ) (hc : 1 ≤ c) : blended c w 1 = 1 := by
  have hfirst : stepped c 1 = 1 :=
    le_antisymm (isShare_stepped c 1).le_one (le_stepped isShare_one hc)
  rw [blended, hfirst, weighted_one, stepped_one isShare_one]

theorem blended_mono (c s : ℚ) (h : w ≤ z) : blended c w s ≤ blended c z s :=
  stepped_mono (isShare_stepped c s).nonneg (weighted_mono (isShare_stepped c s).le_one h)

/-- The second step goes on in the direction of the first. -/
theorem le_blended (hs : IsShare s) (hc : 1 ≤ c) (hw : 0 ≤ w) : s ≤ blended c w s := by
  have hfirst := isShare_stepped c s
  exact (le_stepped hs hc).trans (le_stepped hfirst (one_le_weighted hfirst.le_one hw))

theorem blended_le (hs : IsShare s) (hc : c ≤ 1) (hw : w ≤ 0) : blended c w s ≤ s := by
  have hfirst := isShare_stepped c s
  exact (stepped_le hfirst (weighted_le_one hfirst.le_one hw)).trans (stepped_le hs hc)

end Darkroom
