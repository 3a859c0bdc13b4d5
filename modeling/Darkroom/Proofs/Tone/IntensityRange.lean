import Darkroom.Proofs.Numeric.Grid
import Darkroom.Proofs.Tone.Intensity
import Darkroom.Proofs.Tone.StepValues

/-!
# Intensities in Range

The intensity at a place on the colour circle lies between zero and one, unless the place is one
half exactly.

A sector adds a part of the spread to the least intensity, and what it adds must not be more than
the spread if the sum is to stay below one. The constants of the sectors are rounded, so at the ends
of a sector the part can come out a little greater than the whole. What saves most places is that
the numbers of the format are not dense: the last one below the rounded sixth, and the first one
above one half, are far enough from the end for the roundings of the part. Since the difference of
two intensities from one half on is exact, nothing else is rounded but the sum, and that is rounded
down to one if it is no more than half a place above.

At one half the way to the rounded two thirds is longer than a sixth, and six times as much is the
number after one. There the sum can exceed one, but by no more than this.

## Main definitions

* `IsPart`: What a sector adds to the least intensity, as a function of the spread.
* `risen`, `fallen`: What the two sectors add that are not level.
* `IsSpan`: The least and the greatest intensity of a colour, as far as they are exact.

## Theorems

* `round_le_one`, `round_le_afterOne`: What is rounded down to one, and to the number after it.
* `isPart_risen`, `isPart_fallen`: Away from one half, a sector adds hardly more than the spread.
* `IsSpan.lift_nonneg`, `IsSpan.lift_le_one`: Then the sum stays between zero and one.
* `IsSpan.fallen_half_le`: At one half the sum does not pass the number after one.
* `IsSpan.exists_intensityWithin`: The intensity at any place.
-/

namespace Darkroom

open Binary

/-- The number after one. -/
def afterOne : Single := ofRatio false (2 ^ 23 + 1) 1 (-23)

/-- The value of a number that is given by its significand and its exponent. -/
theorem denotes_of_eq_finite {x : Single} (m : ℕ) (e : ℤ) (hc : binary32.Canonical m e) {q : ℚ}
    (hx : x = finite false m e hc) (hq : q = m * 2 ^ e) : x.Denotes q := by
  have h := denotes_finite (f := binary32) false m e hc
  rw [← hx, show signed false m = (m : ℤ) from rfl, Int.cast_natCast, ← hq] at h
  exact h

theorem denotes_afterOne : afterOne.Denotes (1 + 4 * roundoff) :=
  denotes_of_eq_finite (2 ^ 23 + 1) (-23) (by decide) (by decide) (by norm_num [roundoff])

theorem denotes_sixth : sixth.Denotes (11184811 / 2 ^ 26) :=
  denotes_of_eq_finite 11184811 (-26) (by decide) (by decide) (by norm_num)

theorem denotes_twoThirds : twoThirds.Denotes (11184811 / 2 ^ 24) :=
  denotes_of_eq_finite 11184811 (-24) (by decide) (by decide) (by norm_num)

section

variable {q : ℚ} {k : ℕ} {d : ℤ} (hd : d = -23 - k) (h : 1 / 2 ^ k ≤ q)
include hd h

/-- The size that belongs to a place, for numbers below one. -/
theorem two_zpow_lead_le_abs : 2 ^ (d + binary32.precision - 1) ≤ |q| := by
  have hlead : d + binary32.precision - 1 = -k := by
    simp only [binary32]
    omega
  rw [hlead, zpow_neg, zpow_natCast, ← one_div]
  exact h.trans (le_abs_self q)

theorem le_place_of_inv_le : d ≤ binary32.place q :=
  BinaryFormat.le_place_of_le (two_zpow_lead_le_abs hd h)

theorem exists_multiple_of_inv_le (hq : binary32.Representable q) : ∃ n : ℤ, q = n * 2 ^ d :=
  hq.exists_multiple_of_le (two_zpow_lead_le_abs hd h)

end

/-- Half a place above one, a number is rounded down to one. -/
theorem round_le_one {v : ℚ} (h : v ≤ 1 + 2 * roundoff) : binary32.round v ≤ 1 := by
  rcases le_or_gt v 1 with hle | hgt
  · exact BinaryFormat.round_le_of_le denotes_one.representable hle
  have hone : ((2 ^ 22 : ℤ) : ℚ) * 2 ^ (-23 + 1 : ℤ) = 1 := by norm_num
  have hround := BinaryFormat.round_le_of_le_midpoint (f := binary32) (d := -23) (n := 2 ^ 22)
    (by rw [hone]; exact denotes_one.representable)
    (le_place_of_inv_le (q := v) (k := 0) rfl (by linarith))
    (by rw [hone]; refine h.trans ?_; norm_num [roundoff])
  rwa [hone] at hround

/-- Less than half a place above the number after one, a number is rounded down to that. -/
theorem round_le_afterOne {v : ℚ} (h : v < 1 + 6 * roundoff) :
    binary32.round v ≤ 1 + 4 * roundoff := by
  have hpos := roundoff_pos
  rcases le_or_gt (binary32.round v) 1 with hle | hgt
  · linarith
  have hv : |v| ≤ 2 ^ 1 := by
    have hone : ¬v ≤ 1 := fun hle => not_lt.mpr
      (BinaryFormat.round_le_of_le denotes_one.representable hle) hgt
    rw [abs_of_pos (by linarith [not_le.mp hone])]
    linarith [roundoff_le]
  have hnear := (abs_le.mp (abs_round_sub_le_roundoff 1 hv)).2
  rcases exists_multiple_of_inv_le (q := binary32.round v) (k := 0) rfl (by linarith)
    (BinaryFormat.representable_round (f := binary32) v) with ⟨n, hn⟩
  have hnext : ((2 ^ 23 + 1 : ℤ) : ℚ) * 2 ^ (-23 - (0 : ℕ) : ℤ) = 1 + 4 * roundoff := by
    norm_num [roundoff]
  have hplace : (2 : ℚ) ^ (-23 - (0 : ℕ) : ℤ) = 4 * roundoff := by norm_num [roundoff]
  rw [hn, ← hnext]
  refine BinaryFormat.multiple_le_of_lt ?_
  rw [← hn, hnext, hplace]
  linarith

/-- A rounding is a part of the number, or less than the least number that uses all bits. -/
theorem round_le_mul_add {v : ℚ} (h : 0 ≤ v) :
    binary32.round v ≤ v * (1 + 2 * roundoff) + 1 / 2 ^ 126 := by
  have hpos := roundoff_pos
  rcases le_or_gt (1 / 2 ^ 126) v with hle | hlt
  · have herr := abs_round_sub_le_roundoff_mul (by rwa [abs_of_nonneg h] : 1 / 2 ^ 126 ≤ |v|)
    rw [abs_of_nonneg h] at herr
    linarith [(abs_le.mp herr).2, one_div_pos.mpr (pow_pos two_pos 126 : (0 : ℚ) < 2 ^ 126)]
  · have hr : binary32.Representable (2 ^ (-126 : ℤ)) :=
      BinaryFormat.representable_two_zpow (by decide)
    rw [zpow_neg, ← one_div] at hr
    have hround := BinaryFormat.round_le_of_le hr (by exact_mod_cast hlt.le)
    have : 0 ≤ v * (1 + 2 * roundoff) := by positivity
    exact (show binary32.round v ≤ 1 / 2 ^ 126 by exact_mod_cast hround).trans (by linarith)

theorem round_nonneg {v : ℚ} (h : 0 ≤ v) : 0 ≤ binary32.round v :=
  BinaryFormat.le_round_of_le BinaryFormat.representable_zero h

/-- What a sector adds to the least intensity, as a function of the spread: it has the sign of the
    spread, and is greater than it by `ε` at most. -/
structure IsPart (part : ℚ → ℚ) (ε : ℚ) : Prop where
  neg (d : ℚ) : part (-d) = -part d
  nonneg {d : ℚ} (h : 0 ≤ d) : 0 ≤ part d
  le {d : ℚ} (h0 : 0 ≤ d) (h1 : d ≤ 1) : part d ≤ d + ε

/-- What is added in the sector where the intensity rises, at the turn `w`. -/
def risen (w d : ℚ) : ℚ := binary32.round (binary32.round (d * 6) * w)

/-- What is added in the sector where the intensity falls, `x` before its end. -/
def fallen (x d : ℚ) : ℚ := binary32.round (binary32.round (d * x) * 6)

/-- Before the rounded sixth, six turns are less than one by half a place. -/
theorem isPart_risen {w : ℚ} (h0 : 0 ≤ w) (h1 : 6 * w ≤ 1 - 2 * roundoff) :
    IsPart (risen w) (2 * roundoff) where
  neg d := by
    rw [risen, risen, neg_mul, BinaryFormat.round_neg, neg_mul, BinaryFormat.round_neg]
  nonneg hd := round_nonneg (mul_nonneg (round_nonneg (by linarith)) h0)
  le {d} hd hd1 := by
    have hsix := round_nonneg (v := d * 6) (by linarith)
    have hfirst := round_le_mul_add (v := d * 6) (by linarith)
    have hsecond := round_le_mul_add (mul_nonneg hsix h0)
    have hturn : binary32.round (d * 6) * w ≤
        (d * 6 * (1 + 2 * roundoff) + 1 / 2 ^ 126) * ((1 - 2 * roundoff) / 6) :=
      mul_le_mul hfirst (by linarith) h0 (hsix.trans hfirst)
    rw [risen]
    norm_num [roundoff] at hsecond hturn ⊢
    linarith

/-- The same from the other end: `k` is how often a sixth goes into the way to the end. -/
theorem fallen_le {x d k : ℚ} (hd : 0 ≤ d) (h0 : 0 ≤ x) (h1 : 6 * x ≤ k) :
    fallen x d ≤ d * k * (1 + 2 * roundoff) ^ 2 + 8 / 2 ^ 126 := by
  have hpart := mul_nonneg hd h0
  have hfirst := round_le_mul_add hpart
  have hsecond := round_le_mul_add (v := binary32.round (d * x) * 6)
    (by linarith [round_nonneg hpart])
  have hway : d * (6 * x) ≤ d * k := mul_le_mul_of_nonneg_left h1 hd
  rw [fallen]
  norm_num [roundoff] at hfirst hsecond ⊢
  linarith

/-- The part is nowhere greater than the spread by more than it is for no spread and a whole one. -/
theorem isPart_fallen {x ε k : ℚ} (h0 : 0 ≤ x) (h1 : 6 * x ≤ k) (hnone : 8 / 2 ^ 126 ≤ ε)
    (hwhole : k * (1 + 2 * roundoff) ^ 2 + 8 / 2 ^ 126 ≤ 1 + ε) : IsPart (fallen x) ε where
  neg d := by
    rw [fallen, fallen, neg_mul, BinaryFormat.round_neg, neg_mul, BinaryFormat.round_neg]
  nonneg hd := round_nonneg (by linarith [round_nonneg (mul_nonneg hd h0)])
  le {d} hd hd1 := by
    calc fallen x d ≤ d * k * (1 + 2 * roundoff) ^ 2 + 8 / 2 ^ 126 := fallen_le hd h0 h1
      _ = d * (k * (1 + 2 * roundoff) ^ 2 + 8 / 2 ^ 126) + (1 - d) * (8 / 2 ^ 126) := by ring
      _ ≤ d * (1 + ε) + (1 - d) * ε :=
        add_le_add (mul_le_mul_of_nonneg_left hwhole hd)
          (mul_le_mul_of_nonneg_left hnone (by linarith))
      _ = d + ε := by ring

/-- Where the roundings have exchanged the intensities, nothing is added. -/
theorem IsPart.lift_le_low {part : ℚ → ℚ} {ε p q : ℚ} (hpart : IsPart part ε) (hlt : q < p) :
    p + part (binary32.round (q - p)) ≤ p := by
  have hspread : binary32.round (q - p) ≤ 0 :=
    BinaryFormat.round_le_of_le BinaryFormat.representable_zero (by linarith)
  have hnonneg := hpart.nonneg (neg_nonneg.mpr hspread)
  rw [hpart.neg] at hnonneg
  linarith

/-- The least intensity `p` and the greatest intensity `q` of a colour. From one half on they are
    multiples of one place, of twice that place if the greatest is one. The roundings can exchange
    them where they are close, but not near black. -/
structure IsSpan (p q : ℚ) : Prop where
  low : IsShare p
  high : IsShare q
  exists_multiple (h : 1 / 2 ≤ q) : ∃ n : ℤ, p = n * 2 ^ (-24 : ℤ)
  exists_multiple_of_one (h : q = 1) : ∃ n : ℤ, p = n * 2 ^ (-23 : ℤ)
  quarter_le (h : q < p) : 1 / 4 ≤ q

namespace IsSpan

variable {p q : ℚ} (h : IsSpan p q)
include h

theorem abs_spread_le : |q - p| ≤ 1 :=
  abs_le.mpr ⟨by linarith [h.high.nonneg, h.low.le_one], by linarith [h.high.le_one, h.low.nonneg]⟩

theorem abs_round_spread_sub_le : |binary32.round (q - p) - (q - p)| ≤ roundoff := by
  have herr := abs_round_sub_le_roundoff 0 (by rw [pow_zero]; exact h.abs_spread_le)
  rwa [pow_zero, one_mul] at herr

theorem abs_round_spread_le : |binary32.round (q - p)| ≤ 1 :=
  BinaryFormat.abs_round_le denotes_one.representable h.abs_spread_le

/-- From one half on the spread is exact. -/
theorem round_spread_eq (hhalf : 1 / 2 ≤ q) : binary32.round (q - p) = q - p := by
  refine BinaryFormat.round_of_representable ?_
  rcases h.exists_multiple hhalf with ⟨n, hn⟩
  rcases exists_multiple_of_inv_le (q := q) (k := 1) (d := -24) rfl (by linarith)
    h.high.representable with ⟨m, hm⟩
  refine BinaryFormat.representable_of_multiple (n := m - n) (d := -24) (by decide) ?_ ?_
  · rw [hn, hm]
    push_cast
    ring
  · norm_num [binary32]
    exact h.abs_spread_le

section

variable {part : ℚ → ℚ} {ε : ℚ} (hpart : IsPart part ε)
include hpart

theorem lift_nonneg (hε : ε ≤ 9 * roundoff) : 0 ≤ p + part (binary32.round (q - p)) := by
  rcases le_or_gt p q with hle | hlt
  · exact add_nonneg h.low.nonneg (hpart.nonneg (round_nonneg (sub_nonneg.mpr hle)))
  · have hspread : binary32.round (q - p) ≤ 0 :=
      BinaryFormat.round_le_of_le BinaryFormat.representable_zero (by linarith)
    have hle :=
      hpart.le (neg_nonneg.mpr hspread) (by linarith [(abs_le.mp h.abs_round_spread_le).1])
    rw [hpart.neg] at hle
    linarith [h.quarter_le hlt, (abs_le.mp h.abs_round_spread_sub_le).1, roundoff_le]

/-- Below one half the sum is far from one. -/
theorem lift_le_one_of_lt (hε : ε ≤ 9 * roundoff) (hhalf : q < 1 / 2) :
    p + part (binary32.round (q - p)) ≤ 1 := by
  rcases le_or_gt p q with hle | hlt
  · have hadd := hpart.le (round_nonneg (sub_nonneg.mpr hle)) (abs_le.mp h.abs_round_spread_le).2
    linarith [(abs_le.mp h.abs_round_spread_sub_le).2, roundoff_le]
  · exact (hpart.lift_le_low hlt).trans h.low.le_one

/-- From one half on the sum is greater than the greatest intensity by as much as the part is
    greater than the spread. -/
theorem lift_le_add (hhalf : 1 / 2 ≤ q) (hle : p ≤ q) :
    p + part (binary32.round (q - p)) ≤ q + ε := by
  have hadd := hpart.le (round_nonneg (sub_nonneg.mpr hle)) (abs_le.mp h.abs_round_spread_le).2
  rw [h.round_spread_eq hhalf] at hadd ⊢
  linarith

end

/-- A part that is hardly greater than the spread leaves the sum below one. -/
theorem lift_le_one {part : ℚ → ℚ} (hpart : IsPart part (2 * roundoff)) :
    binary32.round (p + part (binary32.round (q - p))) ≤ 1 := by
  have hpos := roundoff_pos
  refine round_le_one ?_
  rcases lt_or_ge q (1 / 2) with hdark | hhalf
  · linarith [h.lift_le_one_of_lt hpart (by linarith) hdark]
  rcases le_or_gt p q with hle | hlt
  · linarith [h.lift_le_add hpart hhalf hle, h.high.le_one]
  · linarith [hpart.lift_le_low hlt, h.low.le_one]

end IsSpan

/-- How far it is from one half to the rounded two thirds. -/
def halfWay : ℚ := 2796203 / 2 ^ 24

theorem abs_mul_halfWay_le {d : ℚ} {k : ℕ} (h0 : 0 ≤ d) (h : d * halfWay ≤ 1 / 2 ^ k)
    (hk : k ≤ 125) :
    |binary32.round (d * halfWay) - d * halfWay| ≤ 1 / 2 ^ k * roundoff := by
  have hway : 0 ≤ d * halfWay := mul_nonneg h0 (by norm_num [halfWay])
  have hround := BinaryFormat.abs_round_sub_le_of_abs_le (f := binary32) (q := d * halfWay)
    (k := -k) (by simp only [binary32]; omega)
    (by rw [abs_of_nonneg hway, zpow_neg, zpow_natCast, ← one_div]; exact h)
  have hplace : (2 : ℚ) ^ (-(k : ℤ) - binary32.precision) / 2 = 1 / 2 ^ k * roundoff := by
    rw [zpow_sub₀ (by norm_num), zpow_neg, zpow_natCast, roundoff]
    norm_num [binary32]
    ring
  rwa [hplace] at hround

/-- Six times the way is one and four roundoffs. Each of the two roundings adds to this. -/
theorem fallen_halfWay_le {d : ℚ} (h0 : 0 ≤ d) (h1 : d ≤ 1) :
    fallen halfWay d ≤ d + 15 / 2 * roundoff := by
  have hfirst := abs_mul_halfWay_le (k := 2) h0 (by norm_num [halfWay]; linarith) (by norm_num)
  have hpart := round_nonneg (v := d * halfWay) (mul_nonneg h0 (by norm_num [halfWay]))
  have hpart_le := (abs_le.mp hfirst).2
  have hsecond := (abs_le.mp (abs_round_sub_le_roundoff (q := binary32.round (d * halfWay) * 6) 1
    (by
      rw [abs_of_nonneg (by linarith)]
      norm_num [halfWay, roundoff] at hpart_le ⊢
      linarith))).2
  rw [fallen]
  norm_num [halfWay, roundoff] at hpart_le hsecond ⊢
  linarith

/-- A short part is rounded too little to matter. -/
theorem fallen_halfWay_le_of_short {d : ℚ} (hr : binary32.Representable (d + 4 * roundoff))
    (h0 : 0 ≤ d) (hshort : d * halfWay < 1 / 8) : fallen halfWay d ≤ d + 4 * roundoff := by
  have hfirst := abs_mul_halfWay_le (k := 3) h0 (by norm_num; linarith) (by norm_num)
  have hpart_le := (abs_le.mp hfirst).2
  refine BinaryFormat.round_le_of_le hr ?_
  norm_num [halfWay, roundoff] at hpart_le hshort ⊢
  linarith

/-- Six times the part of a spread that is a multiple of a place is never much more than half a
    place above: both are multiples of a roundoff. -/
theorem part_mul_six_le {d : ℚ} {n : ℤ} (hd : d = n * 2 ^ (-23 : ℤ)) (h0 : 0 ≤ d) (h1 : d ≤ 1)
    (hpart : 1 / 2 ^ 3 ≤ binary32.round (d * halfWay)) :
    binary32.round (d * halfWay) * 6 ≤ (n + 1 : ℤ) * 2 ^ (-24 + 1 : ℤ) + 2 ^ (-24 : ℤ) / 2 := by
  have hfirst := abs_mul_halfWay_le (k := 2) h0 (by norm_num [halfWay]; linarith) (by norm_num)
  have hpart_le := (abs_le.mp hfirst).2
  rcases exists_multiple_of_inv_le (k := 3) (d := -26) rfl hpart
    (BinaryFormat.representable_round (f := binary32) (d * halfWay)) with ⟨m, hm⟩
  have hsix : binary32.round (d * halfWay) * 6 = (3 * m : ℤ) * 2 ^ (-25 : ℤ) := by
    rw [hm]
    push_cast
    norm_num
    ring
  have hmidpoint : ((n + 1 : ℤ) : ℚ) * 2 ^ (-24 + 1 : ℤ) + 2 ^ (-24 : ℤ) / 2
      = (4 * n + 5 : ℤ) * 2 ^ (-25 : ℤ) := by
    push_cast
    norm_num
    ring
  have hspread : d = 4 * n * 2 ^ (-25 : ℤ) := by
    rw [hd]
    norm_num
    ring
  rw [hsix, hmidpoint]
  refine BinaryFormat.multiple_le_of_lt ?_
  rw [← hsix]
  push_cast
  norm_num [halfWay, roundoff] at hpart_le hspread ⊢
  linarith

/-- If the spread is a multiple of a place, the second rounding can take back what the first one has
    added. -/
theorem fallen_halfWay_le_of_multiple {d : ℚ} {n : ℤ} (hd : d = n * 2 ^ (-23 : ℤ)) (h0 : 0 ≤ d)
    (h1 : d ≤ 1) : fallen halfWay d ≤ d + 4 * roundoff := by
  have hnext : d + 4 * roundoff = (n + 1 : ℤ) * 2 ^ (-24 + 1 : ℤ) := by
    rw [hd, roundoff]
    push_cast
    norm_num
    ring
  have hr : binary32.Representable (d + 4 * roundoff) := by
    refine BinaryFormat.representable_of_multiple (by decide) hnext ?_
    rw [abs_of_nonneg (by linarith [roundoff_pos])]
    norm_num [binary32]
    linarith [roundoff_le]
  rcases lt_or_ge (d * halfWay) (1 / 8) with hshort | hlong
  · exact fallen_halfWay_le_of_short hr h0 hshort
  · have heighth : binary32.Representable (2 ^ (-3 : ℤ)) :=
      BinaryFormat.representable_two_zpow (by decide)
    have hpart := BinaryFormat.le_round_of_le heighth
      (show (2 : ℚ) ^ (-3 : ℤ) ≤ d * halfWay by norm_num; linarith)
    have hpart : 1 / 2 ^ 3 ≤ binary32.round (d * halfWay) := by
      norm_num at hpart ⊢
      exact hpart
    rw [hnext] at hr ⊢
    exact BinaryFormat.round_le_of_le_midpoint hr
      (le_place_of_inv_le (k := 1) rfl (by linarith)) (part_mul_six_le hd h0 h1 hpart)

theorem isPart_fallen_halfWay : IsPart (fallen halfWay) (9 * roundoff) :=
  isPart_fallen (k := 1 + 4 * roundoff) (by norm_num [halfWay]) (by norm_num [halfWay, roundoff])
    (by norm_num [roundoff]) (by norm_num [roundoff])

/-- At one half the sum does not pass the number after one. -/
theorem IsSpan.fallen_half_le {p q : ℚ} (h : IsSpan p q) :
    binary32.round (p + fallen halfWay (binary32.round (q - p))) ≤ 1 + 4 * roundoff := by
  have hpos := roundoff_pos
  refine round_le_afterOne ?_
  rcases lt_or_ge q (1 / 2) with hdark | hhalf
  · linarith [h.lift_le_one_of_lt isPart_fallen_halfWay le_rfl hdark]
  rcases le_or_gt p q with hle | hlt
  swap
  · linarith [isPart_fallen_halfWay.lift_le_low hlt, h.low.le_one]
  rw [h.round_spread_eq hhalf]
  have h0 := sub_nonneg.mpr hle
  have h1 := (abs_le.mp h.abs_spread_le).2
  rcases h.high.le_one.eq_or_lt with heq | hlt
  · rcases h.exists_multiple_of_one heq with ⟨n, hn⟩
    have hspread : q - p = (2 ^ 23 - n : ℤ) * 2 ^ (-23 : ℤ) := by
      rw [heq, hn]
      push_cast
      norm_num
      ring
    linarith [fallen_halfWay_le_of_multiple hspread h0 h1]
  · -- The greatest intensity is at least one place below one.
    rcases exists_multiple_of_inv_le (q := q) (k := 1) (d := -24) rfl (by linarith)
      h.high.representable with ⟨n, hn⟩
    have hbelow : q ≤ 1 - 2 * roundoff := by
      have hone : (1 : ℚ) - 2 * roundoff = (2 ^ 24 - 1 : ℤ) * 2 ^ (-24 : ℤ) := by
        norm_num [roundoff]
      rw [hone, hn]
      refine BinaryFormat.multiple_le_of_lt ?_
      rw [← hn]
      norm_num
      exact hlt
    linarith [fallen_halfWay_le h0 h1]

/-- The last number before the rounded sixth is half a place short of a sixth. -/
theorem six_mul_le_of_lt {w : ℚ} (hr : binary32.Representable w) (h : w < 11184811 / 2 ^ 26) :
    6 * w ≤ 1 - 2 * roundoff := by
  rcases lt_or_ge w (1 / 2 ^ 3) with hsmall | hlarge
  · norm_num [roundoff] at hsmall ⊢
    linarith
  rcases exists_multiple_of_inv_le (d := -26) rfl hlarge hr with ⟨n, hn⟩
  have hlast : w ≤ (11184810 : ℤ) * 2 ^ (-26 : ℤ) := by
    rw [hn]
    refine BinaryFormat.multiple_le_of_lt ?_
    rw [← hn]
    norm_num at h ⊢
    linarith
  norm_num [roundoff] at hlast ⊢
  linarith

/-- From one half on, the way to the rounded two thirds is exact. It is shorter by a place at every
    number but one half itself. -/
theorem denotes_twoThirds_sub {turn : Single} {w : ℚ} (hturn : turn.Denotes w) (h0 : 1 / 2 ≤ w)
    (h1 : w < 11184811 / 2 ^ 24) :
    (twoThirds - turn).Denotes (11184811 / 2 ^ 24 - w) ∧
      (w ≠ 1 / 2 → 6 * (11184811 / 2 ^ 24 - w) ≤ 1 - 8 * roundoff) := by
  rcases exists_multiple_of_inv_le (k := 1) (d := -24) rfl (by linarith) hturn.representable with
    ⟨n, hn⟩
  have hsize : |11184811 / 2 ^ 24 - w| ≤ 1 := abs_le.mpr ⟨by linarith, by linarith⟩
  have hr : binary32.Representable (11184811 / 2 ^ 24 - w) := by
    refine BinaryFormat.representable_of_multiple (n := 11184811 - n) (d := -24) (by decide) ?_ ?_
    · rw [hn]
      push_cast
      norm_num
      ring
    · norm_num [binary32] at hsize ⊢
      exact hsize
  have hdiff := denotes_twoThirds.sub hturn
    (abs_round_le_greatest 0 (by norm_num) (by rwa [pow_zero]))
  rw [BinaryFormat.round_of_representable hr] at hdiff
  refine ⟨hdiff, fun hne => ?_⟩
  have hhalf : (1 : ℚ) / 2 = (2 ^ 23 : ℤ) * 2 ^ (-24 : ℤ) := by norm_num
  have habove : ((2 ^ 23 : ℤ) : ℚ) * 2 ^ (-24 : ℤ) < n * 2 ^ (-24 : ℤ) := by
    rw [← hhalf, ← hn]
    exact lt_of_le_of_ne h0 hne.symm
  have hnext : (2 ^ 23 + 1 : ℤ) ≤ n := by
    have := (mul_lt_mul_iff_left₀ (two_zpow_pos (-24))).mp habove
    exact_mod_cast this
  have hw : ((2 ^ 23 + 1 : ℤ) : ℚ) * 2 ^ (-24 : ℤ) ≤ w := by
    rw [hn]
    exact mul_le_mul_of_nonneg_right (by exact_mod_cast hnext) (two_zpow_pos _).le
  norm_num [roundoff] at hw ⊢
  linarith

namespace IsSpan

variable {low high turn : Single} {p q w : ℚ} (h : IsSpan p q)
include h

theorem denotes_spread (hlow : low.Denotes p) (hhigh : high.Denotes q) :
    (high - low).Denotes (binary32.round (q - p)) :=
  hhigh.sub hlow (abs_round_le_greatest 0 (by norm_num) (by rw [pow_zero]; exact h.abs_spread_le))

/-- The sum of the least intensity and what a sector adds. -/
theorem denotes_lift {part : ℚ → ℚ} {ε : ℚ} {x : Single} (hpart : IsPart part ε)
    (hε : ε ≤ 9 * roundoff) (hlow : low.Denotes p)
    (hx : x.Denotes (part (binary32.round (q - p)))) :
    (low + x).Denotes (binary32.round (p + part (binary32.round (q - p)))) := by
  refine hlow.add hx (abs_round_le_greatest 2 (by norm_num) ?_)
  rw [abs_of_nonneg (h.lift_nonneg hpart hε)]
  rcases le_or_gt p q with hle | hlt
  · have hadd := hpart.le (round_nonneg (sub_nonneg.mpr hle)) (abs_le.mp h.abs_round_spread_le).2
    linarith [h.low.le_one, (abs_le.mp h.abs_round_spread_le).2, roundoff_le]
  · linarith [hpart.lift_le_low hlt, h.low.le_one]

theorem denotes_rising (hlow : low.Denotes p) (hhigh : high.Denotes q) (hturn : turn.Denotes w)
    (h0 : 0 ≤ w) (h1 : 6 * w ≤ 1 - 2 * roundoff) :
    (low + (high - low) * 6 * turn).Denotes
      (binary32.round (p + risen w (binary32.round (q - p)))) := by
  have hsix := (h.denotes_spread hlow hhigh).mul denotes_six (abs_round_le_greatest 3 (by norm_num)
    (by rw [abs_mul, abs_of_pos (by norm_num : (0 : ℚ) < 6)]; linarith [h.abs_round_spread_le]))
  refine h.denotes_lift (isPart_risen h0 h1) (by linarith [roundoff_pos]) hlow ?_
  exact hsix.mul_share hturn (by rw [abs_of_nonneg h0]; linarith [roundoff_pos])

theorem denotes_falling {rest : Single} {x ε : ℚ} (hlow : low.Denotes p) (hhigh : high.Denotes q)
    (hrest : rest.Denotes x) (h0 : 0 ≤ x) (h1 : x ≤ 1) (hpart : IsPart (fallen x) ε)
    (hε : ε ≤ 9 * roundoff) :
    (low + (high - low) * rest * 6).Denotes
      (binary32.round (p + fallen x (binary32.round (q - p)))) := by
  have hx : |x| ≤ 1 := by rwa [abs_of_nonneg h0]
  have hproduct := (h.denotes_spread hlow hhigh).mul_share hrest hx
  have hsize : |binary32.round (binary32.round (q - p) * x)| ≤ 1 := by
    refine BinaryFormat.abs_round_le denotes_one.representable ?_
    rw [abs_mul]
    exact mul_le_one₀ h.abs_round_spread_le (abs_nonneg x) hx
  refine h.denotes_lift hpart hε hlow (hproduct.mul denotes_six
    (abs_round_le_greatest 3 (by norm_num) ?_))
  rw [abs_mul, abs_of_pos (by norm_num : (0 : ℚ) < 6)]
  linarith

/-- The intensity at a place lies between zero and one, and at one half it is at most the number
    after one. -/
theorem exists_intensityWithin (hlow : low.Denotes p) (hhigh : high.Denotes q)
    (hturn : turn.Denotes w) (h0 : 0 ≤ w) :
    ∃ v, (Hsl.intensityWithin low high turn).Denotes v ∧ 0 ≤ v ∧ v ≤ 1 + 4 * roundoff ∧
      (w ≠ 1 / 2 → v ≤ 1) := by
  have hpos := roundoff_pos
  -- Whatever is at most one is at most the number after it.
  have hwithin {x : Single} {v : ℚ} (hx : x.Denotes v) (hv0 : 0 ≤ v) (hv1 : v ≤ 1) :
      ∃ v, x.Denotes v ∧ 0 ≤ v ∧ v ≤ 1 + 4 * roundoff ∧ (w ≠ 1 / 2 → v ≤ 1) :=
    ⟨v, hx, hv0, by linarith, fun _ => hv1⟩
  rw [Hsl.intensityWithin]
  split_ifs with hrise hup hfall
  · rw [hturn.lt_iff denotes_sixth] at hrise
    have hlast := six_mul_le_of_lt hturn.representable hrise
    have hpart := isPart_risen h0 hlast
    exact hwithin (h.denotes_rising hlow hhigh hturn h0 hlast)
      (round_nonneg (h.lift_nonneg hpart (by linarith))) (h.lift_le_one hpart)
  · exact hwithin hhigh h.high.nonneg h.high.le_one
  · rw [hturn.lt_iff denotes_half, not_lt] at hup
    rw [hturn.lt_iff denotes_twoThirds] at hfall
    rcases denotes_twoThirds_sub hturn hup hfall with ⟨hrest, hfar⟩
    rcases eq_or_ne w (1 / 2) with rfl | hne
    · have hway : (11184811 / 2 ^ 24 - 1 / 2 : ℚ) = halfWay := by norm_num [halfWay]
      rw [hway] at hrest
      exact ⟨_, h.denotes_falling hlow hhigh hrest (by norm_num [halfWay]) (by norm_num [halfWay])
        isPart_fallen_halfWay le_rfl, round_nonneg (h.lift_nonneg isPart_fallen_halfWay le_rfl),
        h.fallen_half_le, fun hne => absurd rfl hne⟩
    · have hpart := isPart_fallen (ε := 2 * roundoff) (sub_nonneg.mpr hfall.le) (hfar hne)
        (by norm_num [roundoff]) (by norm_num [roundoff])
      exact hwithin (h.denotes_falling hlow hhigh hrest (sub_nonneg.mpr hfall.le) (by linarith)
        hpart (by linarith)) (round_nonneg (h.lift_nonneg hpart (by linarith)))
        (h.lift_le_one hpart)
  · exact hwithin hlow h.low.nonneg h.low.le_one

end IsSpan

end Darkroom
