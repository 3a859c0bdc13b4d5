import Darkroom.Camera.Exif
import Darkroom.Camera.Notation
import Darkroom.Proofs.Numeric.Magnitude
import Darkroom.Proofs.Numeric.NearestFraction
import Mathlib.Data.Nat.Cast.Field

/-!
# Exposure Times as Fractions

An exposure time below one second is written as the best fraction, and a fraction that a camera
gives is written as the camera has given it.

The fraction that is written is the nearest one within the bound, which is a fact about rationals. A
camera's fraction takes a detour: it is read as a real number, and the real number is rounded. The
way back is safe because fractions within the bound are much farther apart than rounding moves them.
For the same reason a fraction of 32 bits stays between zero and one when it is rounded, so that it
is written as a fraction at all.

## Theorems

* `shutterText_of_between`: What is written of a number between zero and one.
* `TagValue.number?_ratio`: What is read of a fraction.
* `nearestFraction_round`: Rounding does not lead to another fraction.
* `shutterText_nearest`: Exposure times are written as the best fractions.
-/

namespace Darkroom

open Binary BinaryFormat

/-- A whole number of 32 bits is a real number. -/
theorem realOfWhole_of_lt {n : ℕ} (h : n < 2 ^ 32) :
    ∃ x, realOfWhole n = .ok x ∧ x.Denotes n := by
  have hbits : |(n : ℤ)| < 2 ^ binary64.precision := by
    rw [Nat.abs_cast]
    exact_mod_cast h.trans (by decide)
  have hn := denotes_ofInt_of_lt (f := binary64) hbits (by decide) (by decide)
  rw [Int.cast_natCast] at hn
  exact ⟨_, if_pos hn.1, hn⟩

/-- A real number between zero and one has a value there. -/
theorem exists_denotes_of_between {v : Double} (h0 : 0 < v) (h1 : v < 1) :
    ∃ q, v.Denotes q ∧ 0 < q ∧ q < 1 := by
  have hzero : (0 : Double).Denotes 0 := denotes_ofNat_zero
  rcases hzero.exists_finite with ⟨_, _, _, _, hzero', -⟩
  rcases denotes_one_double.exists_finite with ⟨_, _, _, _, hone', -⟩
  cases v with
  | nan => cases h1
  | infinite s =>
    -- One of the infinities is below zero, the other one above one.
    rw [hzero'] at h0
    rw [hone'] at h1
    cases s with
    | false => cases h1
    | true => cases h0
  | finite s m e h =>
    have hv := denotes_finite s m e h
    exact ⟨_, hv, (hzero.lt_iff hv).mp h0, (hv.lt_iff denotes_one_double).mp h1⟩

/-- An exposure time between zero and one is written as the nearest fraction. -/
theorem shutterText_of_between {v : Double} {q : ℚ} (hv : v.Denotes q) (h0 : 0 < q) (h1 : q < 1) :
    shutterText (.real v) (.whole shutterBound) =
      .ok (some (fractionText (nearestFraction shutterBound q))) := by
  have hwritten : (Number.real v).isWritten = true := by
    show (!decide (v ≤ 0)) = true
    rw [decide_eq_false fun hle => not_le.mpr h0 ((hv.le_iff denotes_ofNat_zero).mp hle)]
    rfl
  have hbelow : (Number.real v).atLeastOne = false :=
    decide_eq_false fun hle => not_le.mpr h1 ((denotes_one_double.le_iff hv).mp hle)
  have hfraction : (Number.real v).toFraction = .ok q := by
    show (if v.isNaN then Except.error Failure.nanToFraction else .ok v.toRat) = .ok q
    rw [hv.isNaN_eq, hv.2]
    rfl
  unfold shutterText
  rw [hwritten, hbelow, hfraction]
  rfl

theorem fractionText_eq {x : ℚ} {n d : ℕ} (hn : x.num = n) (hd : x.den = d) :
    fractionText x = toString n ++ "/" ++ toString d := by
  unfold fractionText
  rw [hn, hd]
  rfl

/-- A quotient of whole numbers in lowest terms. -/
theorem num_den_div (num : ℕ) {den : ℕ} (hden : 0 < den) :
    ((num : ℚ) / den).num = (num / num.gcd den : ℕ) ∧
      ((num : ℚ) / den).den = den / num.gcd den := by
  have hgcd : 0 < num.gcd den := Nat.gcd_pos_of_pos_right num hden
  have hgcd' : ((num.gcd den : ℕ) : ℚ) ≠ 0 := by exact_mod_cast hgcd.ne'
  have hcoprime := Nat.coprime_div_gcd_div_gcd hgcd
  have hpos : (0 : ℤ) < (den / num.gcd den : ℕ) := by
    exact_mod_cast Nat.div_pos (Nat.gcd_le_right num hden) hgcd
  have hreduced : (num : ℚ) / den =
      ((num / num.gcd den : ℕ) : ℤ) / ((den / num.gcd den : ℕ) : ℤ) := by
    rw [Int.cast_natCast, Int.cast_natCast, Nat.cast_div (Nat.gcd_dvd_left num den) hgcd',
      Nat.cast_div (Nat.gcd_dvd_right num den) hgcd', div_div_div_cancel_right₀ hgcd']
  rw [hreduced]
  exact ⟨Rat.num_div_eq_of_coprime hpos hcoprime,
    Int.natCast_inj.mp (Rat.den_div_eq_of_coprime hpos hcoprime)⟩

/-- A quotient below one is not rounded far. -/
theorem abs_round_sub_le_of_lt_one {q : ℚ} (h0 : 0 ≤ q) (h1 : q < 1) :
    |binary64.round q - q| ≤ 1 / 2 ^ 54 := by
  have hround := abs_round_sub_le_of_abs_le (f := binary64) (k := 0) (by decide)
    (by rw [zpow_zero, abs_of_nonneg h0]; exact h1.le)
  have hplace : (2 : ℚ) ^ (0 - (binary64.precision : ℤ)) / 2 = 1 / 2 ^ 54 := by
    rw [binary64]
    norm_num
  rwa [hplace] at hround

/-- A fraction of whole numbers of 32 bits is read as the real number nearest to it. -/
theorem TagValue.number?_ratio {value : TagValue} {num den : ℕ}
    (hvalue : value.first.content = .ratio (.whole num) (.whole den)) (hnum : num < 2 ^ 32)
    (hden : den < 2 ^ 32) (hlt : num < den) :
    ∃ v, value.number? = .ok (some v) ∧ v.Denotes (binary64.round (num / den)) := by
  rcases realOfWhole_of_lt hnum with ⟨x, hx, hxv⟩
  rcases realOfWhole_of_lt hden with ⟨y, hy, hyv⟩
  have hpos : 0 < den := (Nat.zero_le num).trans_lt hlt
  have hpos' : (0 : ℚ) < den := by exact_mod_cast hpos
  have hone : |(num : ℚ) / den| ≤ 1 := by
    rw [abs_of_nonneg (by positivity), div_le_one hpos']
    exact_mod_cast hlt.le
  have hfit := abs_round_le (f := binary64) representable_greatest
    (hone.trans (one_le_greatest (by decide)))
  refine ⟨x / y, ?_, hxv.div hyv hpos'.ne' hfit⟩
  have htrue : (Value.whole den).isTrue = true := by simpa [Value.isTrue] using hpos.ne'
  have hzero : y.isZero = false := Bool.eq_false_iff.mpr fun h => hpos'.ne' (hyv.isZero_iff.mp h)
  have hx' : (Value.whole num).toReal = .ok x := hx
  have hy' : (Value.whole den).toReal = .ok y := hy
  unfold number?
  rw [hvalue]
  show quotient (.whole num) (.whole den) = .ok (some (x / y))
  unfold quotient
  rw [htrue, hx', hy']
  show (if y.isZero then _ else _) = _
  rw [hzero]
  rfl

/-- Fractions of whole numbers of 32 bits are so far from zero and one that rounding does not get
    them there, and so far from each other that it does not get them to another one. -/
theorem nearestFraction_round {num den : ℕ} (hden : den < 2 ^ 32) (hpos : 0 < num)
    (hlt : num < den) (hbound : den / num.gcd den ≤ shutterBound) :
    0 < binary64.round (num / den) ∧ binary64.round (num / den) < 1 ∧
      nearestFraction shutterBound (binary64.round (num / den)) = num / den := by
  have hd : (0 : ℚ) < den := by exact_mod_cast hpos.trans hlt
  have hpart : 1 / 2 ^ 32 ≤ 1 / (den : ℚ) :=
    one_div_le_one_div_of_le hd (by exact_mod_cast hden.le)
  have hlow : 1 / (den : ℚ) ≤ num / den :=
    div_le_div_of_nonneg_right (by exact_mod_cast hpos) hd.le
  have hhigh : (num : ℚ) / den + 1 / den ≤ 1 := by
    rw [← add_div, div_le_one hd]
    exact_mod_cast hlt
  have hround := abs_round_sub_le_of_lt_one (q := (num : ℚ) / den) (by positivity)
    (by linarith [one_div_pos.mpr hd])
  rcases abs_le.mp hround with ⟨hbelow, habove⟩
  have hsmall : (1 : ℚ) / 2 ^ 54 < 1 / 2 ^ 32 := by norm_num
  have h0 : 0 < binary64.round (num / den) := by linarith
  refine ⟨h0, by linarith, ?_⟩
  refine nearestFraction_eq (by decide) h0.le ?_ ?_
  · rw [(num_den_div num (hpos.trans hlt)).2]
    exact hbound
  · rw [abs_sub_comm]
    have hgap : 2 * (1 / 2 ^ 54 : ℚ) < 1 / (shutterBound : ℚ) ^ 2 := by
      rw [shutterBound]
      norm_num
    linarith

/-- An exposure time between zero and one second is written as a fraction in lowest terms with a
    denominator of at most a million, and no other such fraction is nearer. So a fraction of whole
    numbers of 32 bits that can be written in this way is written as it is, in lowest terms: the
    real number that it is read as is closer to it than to any other. -/
theorem shutterText_nearest :
    (∀ v : Double, 0 < v → v < 1 → ∃ n d : ℕ,
      shutterText (.real v) (.whole shutterBound) = .ok (some (toString n ++ "/" ++ toString d)) ∧
        n.Coprime d ∧ 1 ≤ d ∧ d ≤ 1000000 ∧
        ∀ (p : ℤ) (q : ℕ), 1 ≤ q → q ≤ 1000000 →
          |(n : ℚ) / d - v.toRat| ≤ |(p : ℚ) / q - v.toRat|) ∧
    ∀ (value : TagValue) (num den : ℕ),
      value.first.content = .ratio (.whole num) (.whole den) → num < 2 ^ 32 → den < 2 ^ 32 →
      0 < num → num < den → den / num.gcd den ≤ 1000000 →
      ∃ v, value.number? = .ok (some v) ∧ shutterText (.real v) (.whole shutterBound) =
        .ok (some (toString (num / num.gcd den) ++ "/" ++ toString (den / num.gcd den))) := by
  constructor
  · intro v h0 h1
    rcases exists_denotes_of_between h0 h1 with ⟨x, hv, hx0, hx1⟩
    have hnonneg : 0 ≤ nearestFraction shutterBound x :=
      nearestFraction_nonneg (by decide) hx0.le
    have hnum := Int.toNat_of_nonneg (Rat.num_nonneg.mpr hnonneg)
    refine ⟨(nearestFraction shutterBound x).num.toNat, (nearestFraction shutterBound x).den,
      ?_, ?_, Rat.den_pos _, den_nearestFraction_le (by decide) hx0.le, fun p q hq hle => ?_⟩
    · rw [shutterText_of_between hv hx0 hx1, fractionText_eq hnum.symm rfl]
    · have hreduced := (nearestFraction shutterBound x).reduced
      rwa [← hnum, Int.natAbs_natCast] at hreduced
    · have hden : ((p : ℚ) / q).den ≤ q :=
        Nat.le_of_dvd hq (by exact_mod_cast Rat.den_dvd p q)
      rw [← Int.cast_natCast, hnum, Rat.num_div_den, hv.2]
      exact abs_nearestFraction_sub_le (by decide) hx0.le (hden.trans hle)
  · intro value num den hvalue hnum hden hpos hlt hbound
    rcases TagValue.number?_ratio hvalue hnum hden hlt with ⟨v, hread, hv⟩
    rcases nearestFraction_round hden hpos hlt hbound with ⟨h0, h1, hnearest⟩
    rcases num_den_div num (hpos.trans hlt) with ⟨hn, hd⟩
    refine ⟨v, hread, ?_⟩
    rw [shutterText_of_between hv h0 h1, hnearest, fractionText_eq hn hd]

/-- A third of a second, and a fraction that is not in lowest terms, in a tag. -/
theorem shutterText_nearest_third :
    (0 : Double) < 1 / 3 ∧ (1 / 3 : Double) < 1 ∧
      (∃ n d : ℕ, shutterText (.real (1 / 3)) (.whole shutterBound) =
        .ok (some (toString n ++ "/" ++ toString d)) ∧ n.Coprime d) ∧
      ∃ v, (TagValue.tag (.items [.ratio (.whole 10) (.whole 1250)]) "10/1250").number? =
        .ok (some v) ∧ shutterText (.real v) (.whole shutterBound) = .ok (some "1/125") := by
  have h0 : (0 : Double) < 1 / 3 := by decide +kernel
  have h1 : (1 / 3 : Double) < 1 := by decide +kernel
  rcases shutterText_nearest.1 (1 / 3) h0 h1 with ⟨n, d, htext, hreduced, -⟩
  exact ⟨h0, h1, ⟨n, d, htext, hreduced⟩, shutterText_nearest.2 _ 10 1250 rfl (by decide)
    (by decide) (by decide) (by decide) (by decide)⟩

end Darkroom
