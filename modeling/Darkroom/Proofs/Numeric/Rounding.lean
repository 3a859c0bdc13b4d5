import Darkroom.Proofs.Numeric.NearestEven
import Mathlib.Data.Int.Log
import Mathlib.Tactic.Ring

/-!
# Rounding to a Format

The rational that a format keeps of another one, as long as the exponent is not bounded above.

The arithmetic works on significands and exponents, and the same value can be brought to it in
many ways. Here it is a function on rationals: `f.place q` is the exponent of the last place that
numbers of the size of `q` have, and `f.round q` is the nearest multiple of that place. What is
true of every operation is proved of this one function.

The order lemmas go through `Representable`. A number of the format bounds the result as soon as it
bounds the operand, whether or not its own last place is finer than the one rounded to; monotonicity
follows because two operands with different places have a power of two between them.

## Main definitions

* `BinaryFormat.place`: The exponent of the last place at the size of a rational.
* `BinaryFormat.significand`: How many last places the nearest multiple has.
* `BinaryFormat.round`: The nearest multiple of that place.
* `BinaryFormat.Representable`: A rational is a number of the format, or would be if the exponent
  were not bounded above.

## Theorems

* `abs_significand_le`, `le_significand`: How many bits a significand has.
* `round_neg`: Rounding is symmetric around zero.
* `round_le_of_le`, `le_round_of_le`: Numbers of the format bound results.
* `round_of_representable`: Numbers of the format stay.
* `round_mono`: Rounding keeps the order.
* `abs_round_sub_le`: Rounding moves a number by half a last place at most.
* `abs_round_sub_le_mul`: Large enough numbers are moved by a fixed part of them at most.
* `abs_round_sub_le_abs_sub`: No number of the format is closer.
* `abs_round_sub_le_of_abs_le`: The same for all numbers below a power of two.
-/

namespace Darkroom

theorem two_zpow_pos (e : ℤ) : (0 : ℚ) < 2 ^ e := zpow_pos (by norm_num) e

theorem two_zpow_le {d e : ℤ} (h : d ≤ e) : (2 : ℚ) ^ d ≤ 2 ^ e :=
  zpow_le_zpow_right₀ (by norm_num) h

/-- A power of two is a whole number of smaller ones. -/
theorem two_zpow_eq_mul {d e : ℤ} (h : d ≤ e) :
    (2 : ℚ) ^ e = ((2 ^ (e - d).toNat : ℤ) : ℚ) * 2 ^ d := by
  push_cast
  rw [← zpow_natCast, ← zpow_add₀ (by norm_num), Int.toNat_of_nonneg (by omega)]
  congr 1
  omega

namespace BinaryFormat

variable (f : BinaryFormat)

/-- The exponent of the last place that numbers of the size of `q` have. -/
def place (q : ℚ) : ℤ := max f.minExponent (Int.log 2 |q| - (f.precision - 1 : ℕ))

/-- How many last places the nearest multiple has, ties to even. -/
def significand (q : ℚ) : ℤ := roundEven (q / 2 ^ f.place q)

/-- The nearest multiple of the last place. -/
def round (q : ℚ) : ℚ := f.significand q * 2 ^ f.place q

/-- A rational has a significand of so many bits, and its last place is not below the least. -/
def Representable (q : ℚ) : Prop :=
  ∃ (n e : ℤ), |n| ≤ 2 ^ f.precision ∧ f.minExponent ≤ e ∧ q = n * 2 ^ e

theorem minExponent_le_place (q : ℚ) : f.minExponent ≤ f.place q := le_max_left _ _

theorem place_neg (q : ℚ) : f.place (-q) = f.place q := by rw [place, place, abs_neg]

theorem precision_sub_one : ((f.precision - 1 : ℕ) : ℤ) = (f.precision : ℤ) - 1 := by
  have := f.precision_pos
  omega

/-- The last place leaves no more bits to the significand than the format has. -/
theorem abs_lt_two_zpow_place (q : ℚ) : |q| < 2 ^ (f.place q + f.precision) := by
  have hlog : |q| < 2 ^ (Int.log 2 |q| + 1) := by
    exact_mod_cast Int.lt_zpow_succ_log_self (b := 2) (by norm_num) |q|
  refine hlog.trans_le (two_zpow_le ?_)
  have := le_max_right f.minExponent (Int.log 2 |q| - (f.precision - 1 : ℕ))
  rw [f.precision_sub_one] at this
  rw [place, f.precision_sub_one]
  omega

/-- Above the least last place a significand uses all its bits. -/
theorem two_zpow_place_le {q : ℚ} (hq : q ≠ 0) (h : f.minExponent < f.place q) :
    2 ^ (f.place q + f.precision - 1) ≤ |q| := by
  have hlog : (2 : ℚ) ^ Int.log 2 |q| ≤ |q| := by
    exact_mod_cast Int.zpow_log_le_self (b := 2) (by norm_num) (abs_pos.mpr hq)
  refine le_trans (two_zpow_le ?_) hlog
  rw [place, f.precision_sub_one] at h ⊢
  omega

theorem place_mono {p q : ℚ} (hp : p ≠ 0) (h : |p| ≤ |q|) : f.place p ≤ f.place q := by
  have := Int.log_mono_right (b := 2) (abs_pos.mpr hp) h
  rw [place, place]
  omega

@[simp]
theorem round_zero : f.round 0 = 0 := by
  have h := roundEven_intCast 0
  rw [Int.cast_zero] at h
  rw [round, significand, zero_div, h, Int.cast_zero, zero_mul]

theorem significand_neg (q : ℚ) : f.significand (-q) = -f.significand q := by
  rw [significand, significand, place_neg, neg_div, roundEven_neg]

theorem round_neg (q : ℚ) : f.round (-q) = -f.round q := by
  rw [round, round, place_neg, significand_neg, Int.cast_neg, neg_mul]

/-- The significand fits the format, or is the power of two after it. -/
theorem abs_significand_le (q : ℚ) : |f.significand q| ≤ 2 ^ f.precision := by
  have hpos := two_zpow_pos (f.place q)
  have hscaled : |q / 2 ^ f.place q| < ((2 ^ f.precision : ℤ) : ℚ) := by
    rw [abs_div, abs_of_pos hpos, div_lt_iff₀ hpos]
    have := f.abs_lt_two_zpow_place q
    rw [add_comm, zpow_add₀ (by norm_num)] at this
    exact_mod_cast this
  rw [abs_le, ← roundEven_intCast (2 ^ f.precision), ← roundEven_neg]
  exact ⟨roundEven_mono (abs_lt.mp hscaled).1.le, roundEven_mono (abs_lt.mp hscaled).2.le⟩

/-- Above the least last place the significand uses all its bits. -/
theorem le_significand {q : ℚ} (hq : 0 < q) (h : f.minExponent < f.place q) :
    2 ^ (f.precision - 1) ≤ f.significand q := by
  have hpos := two_zpow_pos (f.place q)
  have hlead := f.two_zpow_place_le hq.ne' h
  rw [abs_of_pos hq, add_sub_assoc, ← f.precision_sub_one, add_comm,
    zpow_add₀ (by norm_num)] at hlead
  have hscaled : ((2 ^ (f.precision - 1) : ℤ) : ℚ) ≤ q / 2 ^ f.place q := by
    rw [le_div_iff₀ hpos]
    exact_mod_cast hlead
  rw [← roundEven_intCast (2 ^ (f.precision - 1))]
  exact roundEven_mono hscaled

/-- Rounding moves a number by half a last place at most. -/
theorem abs_round_sub_le (q : ℚ) : |f.round q - q| ≤ 2 ^ f.place q / 2 := by
  have hpos := two_zpow_pos (f.place q)
  have hscaled : f.round q - q = (roundEven (q / 2 ^ f.place q) - q / 2 ^ f.place q) * 2 ^ f.place q
      := by
    rw [sub_mul, div_mul_cancel₀ _ hpos.ne', round, significand]
  rw [hscaled, abs_mul, abs_of_pos hpos]
  have := mul_le_mul_of_nonneg_right (abs_roundEven_sub_le (q / 2 ^ f.place q)) hpos.le
  linarith

/-- From the least number that uses all bits of a significand on, rounding moves a number by a fixed
    part of it at most. -/
theorem abs_round_sub_le_mul {q : ℚ} (h : 2 ^ (f.minExponent + f.precision - 1) ≤ |q|) :
    |f.round q - q| ≤ |q| * 2 ^ (-f.precision : ℤ) := by
  have hlead : (2 : ℚ) ^ (f.place q + f.precision - 1) ≤ |q| := by
    rcases (f.minExponent_le_place q).eq_or_lt with heq | hlt
    · rwa [← heq]
    · exact f.two_zpow_place_le (abs_pos.mp ((two_zpow_pos _).trans_le h)) hlt
  calc |f.round q - q| ≤ 2 ^ f.place q / 2 := f.abs_round_sub_le q
    _ = 2 ^ (f.place q + f.precision - 1) * 2 ^ (-f.precision : ℤ) := by
        rw [← zpow_add₀ (by norm_num), div_eq_mul_inv, ← zpow_sub_one₀ (by norm_num)]
        congr 1
        omega
    _ ≤ |q| * 2 ^ (-f.precision : ℤ) := mul_le_mul_of_nonneg_right hlead (two_zpow_pos _).le

/-- A multiple of the last place bounds the result as soon as it bounds the operand. -/
theorem round_le_of_le_multiple {q : ℚ} {n : ℤ} (h : q ≤ n * 2 ^ f.place q) :
    f.round q ≤ n * 2 ^ f.place q := by
  have hpos := two_zpow_pos (f.place q)
  have hn : roundEven (q / 2 ^ f.place q) ≤ n :=
    roundEven_le_of_le_intCast ((div_le_iff₀ hpos).mpr h)
  exact mul_le_mul_of_nonneg_right (by exact_mod_cast hn) hpos.le

/-- The power of two at the leading bit, as a multiple of the last place. -/
theorem two_zpow_lead_eq (q : ℚ) : (2 : ℚ) ^ (f.place q + f.precision - 1) =
    ((2 ^ (f.precision - 1) : ℤ) : ℚ) * 2 ^ f.place q := by
  have := f.precision_pos
  rw [two_zpow_eq_mul (d := f.place q) (by omega)]
  congr 3
  omega

theorem round_le_two_zpow_lead {q : ℚ} (h : q ≤ 2 ^ (f.place q + f.precision - 1)) :
    f.round q ≤ 2 ^ (f.place q + f.precision - 1) := by
  rw [two_zpow_lead_eq] at h ⊢
  exact f.round_le_of_le_multiple h

theorem round_le_neg_two_zpow_lead {q : ℚ} (h : q ≤ -2 ^ (f.place q + f.precision - 1)) :
    f.round q ≤ -2 ^ (f.place q + f.precision - 1) := by
  rw [two_zpow_lead_eq, ← neg_mul, ← Int.cast_neg] at h ⊢
  exact f.round_le_of_le_multiple h

variable {f}

/-- A number whose last place is finer than that of an operand does not pass its leading bit. -/
theorem abs_le_two_zpow_lead {q : ℚ} {n e : ℤ} (hn : |n| ≤ 2 ^ f.precision) (h : e < f.place q) :
    |(n : ℚ) * 2 ^ e| ≤ 2 ^ (f.place q + f.precision - 1) := by
  have hcast : |(n : ℚ)| ≤ 2 ^ (f.precision : ℤ) := by exact_mod_cast hn
  rw [abs_mul, abs_of_pos (two_zpow_pos e)]
  calc |(n : ℚ)| * 2 ^ e ≤ 2 ^ (f.precision : ℤ) * 2 ^ e :=
        mul_le_mul_of_nonneg_right hcast (two_zpow_pos e).le
    _ = 2 ^ (f.precision + e) := (zpow_add₀ (by norm_num) _ _).symm
    _ ≤ 2 ^ (f.place q + f.precision - 1) := two_zpow_le (by omega)

/-- No multiple of the last place is closer than the one rounded to. -/
theorem abs_round_sub_le_of_multiple (q : ℚ) (n : ℤ) :
    |f.round q - q| ≤ |n * 2 ^ f.place q - q| := by
  have hpos := two_zpow_pos (f.place q)
  have hscaled (m : ℤ) :
      |m * 2 ^ f.place q - q| = |(m : ℚ) - q / 2 ^ f.place q| * 2 ^ f.place q := by
    rw [← abs_of_pos hpos, ← abs_mul, abs_of_pos hpos, sub_mul, div_mul_cancel₀ _ hpos.ne']
  rw [round, hscaled, hscaled, significand]
  exact mul_le_mul_of_nonneg_right (abs_roundEven_sub_le_abs_sub n _) hpos.le

theorem Representable.neg {q : ℚ} (h : f.Representable q) : f.Representable (-q) := by
  rcases h with ⟨n, e, hn, he, rfl⟩
  exact ⟨-n, e, by rwa [abs_neg], he, by rw [Int.cast_neg, neg_mul]⟩

theorem representable_zero : f.Representable 0 := ⟨0, f.minExponent, by simp, le_rfl, by simp⟩

/-- A whole number of so many bits is a number of the format. -/
theorem representable_intCast {n : ℤ} (h : |n| ≤ 2 ^ f.precision) (hmin : f.minExponent ≤ 0) :
    f.Representable n := ⟨n, 0, h, hmin, by rw [zpow_zero, mul_one]⟩

/-- A power of two is a number of the format from the least last place on. -/
theorem representable_two_zpow {e : ℤ} (h : f.minExponent ≤ e) : f.Representable (2 ^ e) :=
  ⟨1, e, by rw [abs_one]; exact one_le_pow₀ (by norm_num), h, by rw [Int.cast_one, one_mul]⟩

/-- A number of the format bounds the result as soon as it bounds the operand. If its last place is
    too fine to be a multiple of the one rounded to, it is too small to be near the operand: the
    operand has all bits of a coarser place, so the power of two at its leading bit separates
    them. -/
theorem round_le_of_le {q r : ℚ} (hr : f.Representable r) (h : q ≤ r) : f.round q ≤ r := by
  rcases hr with ⟨n, e, hn, hmin, rfl⟩
  by_cases hplace : f.place q ≤ e
  · rw [two_zpow_eq_mul hplace, ← mul_assoc, ← Int.cast_mul] at h ⊢
    exact f.round_le_of_le_multiple h
  · have hlt : e < f.place q := by omega
    by_cases hq : q = 0
    · rw [hq, round_zero, ← hq]
      exact h
    have hlead := f.two_zpow_place_le hq (lt_of_le_of_lt hmin hlt)
    rcases abs_le.mp (abs_le_two_zpow_lead hn hlt) with ⟨hlow, hhigh⟩
    rcases le_total 0 q with h0 | h0
    · -- The operand reaches the power and the bound does not pass it, so all three are one.
      rw [abs_of_nonneg h0] at hlead
      calc f.round q ≤ 2 ^ (f.place q + f.precision - 1) := f.round_le_two_zpow_lead (h.trans hhigh)
        _ ≤ q := hlead
        _ ≤ n * 2 ^ e := h
    · rw [abs_of_nonpos h0] at hlead
      calc f.round q ≤ -2 ^ (f.place q + f.precision - 1) :=
            f.round_le_neg_two_zpow_lead (by linarith)
        _ ≤ n * 2 ^ e := hlow

theorem le_round_of_le {q r : ℚ} (hr : f.Representable r) (h : r ≤ q) : r ≤ f.round q := by
  have := round_le_of_le hr.neg (neg_le_neg h)
  rw [round_neg] at this
  linarith

/-- A number of the format that bounds the size of an operand bounds that of the result. -/
theorem abs_round_le {q r : ℚ} (hr : f.Representable r) (h : |q| ≤ r) : |f.round q| ≤ r := by
  rcases abs_le.mp h with ⟨hlow, hhigh⟩
  exact abs_le.mpr ⟨le_round_of_le hr.neg hlow, round_le_of_le hr hhigh⟩

/-- No number of the format is closer than the one rounded to. A number with a finer last place does
    not pass the leading bit of the operand, and the power of two there is a multiple already. -/
theorem abs_round_sub_le_abs_sub {q r : ℚ} (hr : f.Representable r) :
    |f.round q - q| ≤ |r - q| := by
  rcases hr with ⟨n, e, hn, hmin, rfl⟩
  by_cases hplace : f.place q ≤ e
  · rw [two_zpow_eq_mul hplace, ← mul_assoc, ← Int.cast_mul]
    exact abs_round_sub_le_of_multiple q _
  have hlt : e < f.place q := by omega
  rcases eq_or_ne q 0 with rfl | hq
  · rw [round_zero, sub_self, abs_zero]
    exact abs_nonneg _
  have hlead := f.two_zpow_place_le hq (lt_of_le_of_lt hmin hlt)
  rcases abs_le.mp (abs_le_two_zpow_lead hn hlt) with ⟨hlow, hhigh⟩
  rw [f.two_zpow_lead_eq] at hlead hlow hhigh
  -- On either side of zero the power lies between the operand and the finer number.
  rcases le_total 0 q with h0 | h0
  · rw [abs_of_nonneg h0] at hlead
    refine (abs_round_sub_le_of_multiple q (2 ^ (f.precision - 1))).trans ?_
    rw [abs_sub_comm, abs_sub_comm _ q, abs_of_nonneg (by linarith), abs_of_nonneg (by linarith)]
    linarith
  · rw [abs_of_nonpos h0] at hlead
    refine (abs_round_sub_le_of_multiple q (-2 ^ (f.precision - 1))).trans ?_
    rw [Int.cast_neg, neg_mul, abs_of_nonneg (by linarith), abs_of_nonneg (by linarith)]
    linarith

/-- Numbers of the format stay. -/
theorem round_of_representable {q : ℚ} (h : f.Representable q) : f.round q = q :=
  le_antisymm (round_le_of_le h le_rfl) (le_round_of_le h le_rfl)

/-- A multiple of the last place with so many bits is a number of the format. -/
theorem representable_round (q : ℚ) : f.Representable (f.round q) :=
  ⟨f.significand q, f.place q, f.abs_significand_le q, f.minExponent_le_place q, rfl⟩

/-- Rounding keeps the order of numbers that are not negative. If their last places differ, the
    power of two where the finer one ends lies between them. -/
theorem round_mono_of_nonneg {p q : ℚ} (hp : 0 ≤ p) (h : p ≤ q) : f.round p ≤ f.round q := by
  rcases hp.eq_or_lt with rfl | hp0
  · rw [round_zero]
    exact le_round_of_le representable_zero h
  have hplace : f.place p ≤ f.place q := f.place_mono hp0.ne' (by
    rwa [abs_of_pos hp0, abs_of_nonneg (hp.trans h)])
  rcases hplace.eq_or_lt with heq | hlt
  · -- With one place for both, the order is that of the significands.
    rw [round, round, significand, significand, heq]
    have hpos := two_zpow_pos (f.place q)
    have hscaled : p / 2 ^ f.place q ≤ q / 2 ^ f.place q := div_le_div_of_nonneg_right h hpos.le
    exact mul_le_mul_of_nonneg_right (by exact_mod_cast roundEven_mono hscaled) hpos.le
  · have hmin := f.minExponent_le_place p
    have hprec := f.precision_pos
    have hr : f.Representable (2 ^ (f.place p + f.precision)) :=
      representable_two_zpow (by omega)
    have hpr := f.abs_lt_two_zpow_place p
    rw [abs_of_pos hp0] at hpr
    have hrq := f.two_zpow_place_le (hp0.trans_le h).ne' (lt_of_le_of_lt hmin hlt)
    rw [abs_of_nonneg (hp.trans h)] at hrq
    calc f.round p ≤ 2 ^ (f.place p + f.precision) := round_le_of_le hr hpr.le
      _ ≤ f.round q := le_round_of_le hr (le_trans (two_zpow_le (by omega)) hrq)

theorem round_mono {p q : ℚ} (h : p ≤ q) : f.round p ≤ f.round q := by
  rcases le_total 0 p with hp | hp
  · exact round_mono_of_nonneg hp h
  rcases le_total 0 q with hq | hq
  · exact (round_le_of_le representable_zero hp).trans (le_round_of_le representable_zero hq)
  · have := round_mono_of_nonneg (f := f) (neg_nonneg.mpr hq) (neg_le_neg h)
    rw [round_neg, round_neg] at this
    linarith

/-- Below a power of two, rounding moves numbers by half of the place that its predecessors end in.
    The power itself is a number of the format. -/
theorem abs_round_sub_le_of_abs_le {q : ℚ} {k : ℤ} (hk : f.minExponent + f.precision ≤ k)
    (h : |q| ≤ 2 ^ k) : |f.round q - q| ≤ 2 ^ (k - f.precision) / 2 := by
  rcases eq_or_ne q 0 with rfl | hq
  · rw [round_zero, sub_self, abs_zero]
    exact (half_pos (two_zpow_pos _)).le
  rcases h.eq_or_lt with heq | hlt
  · -- The power itself stays, on either side of zero.
    have hpow : f.Representable |q| := heq ▸ representable_two_zpow (by omega)
    have hr : f.Representable q := by
      rcases abs_choice q with habs | habs
      · rwa [habs] at hpow
      · rw [habs] at hpow
        exact neg_neg q ▸ hpow.neg
    rw [round_of_representable hr, sub_self, abs_zero]
    exact (half_pos (two_zpow_pos _)).le
  · refine (f.abs_round_sub_le q).trans (div_le_div_of_nonneg_right (two_zpow_le ?_) (by norm_num))
    have hlog : Int.log 2 |q| < k :=
      (Int.lt_zpow_iff_log_lt (b := 2) (by norm_num) (abs_pos.mpr hq)).mp (by exact_mod_cast hlt)
    rw [place, f.precision_sub_one]
    omega

end BinaryFormat

end Darkroom
