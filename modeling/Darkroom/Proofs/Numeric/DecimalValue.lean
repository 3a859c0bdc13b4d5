import Darkroom.Numeric.Decimal
import Darkroom.Proofs.Numeric.Value

/-!
# Decimals by Value

Decimals as rationals: what their digits, their exponent and the zeros at their end say about the
value.

The definitions count digits and compare naturals. Here a decimal is a rational, a scaled ratio is
the ratio times a power of ten, and counting digits gives two powers of ten that the value lies
between. The decade of a ratio is guessed from its leading bit; only that the ratio is not below its
decade is needed, and the guess is good enough for that at every exponent that a format has.

## Main definitions

* `Decimal.value`: The exact value of a decimal.

## Theorems

* `scaleByTen_eq`: Scaling multiplies by a power of ten.
* `ten_zpow_decade_le`: A ratio is not below its decade.
* `Decimal.value_stripZeros`: Stripping zeros keeps the value.
* `Decimal.value_bounds`: The powers of ten between which a decimal lies.
-/

namespace Darkroom

theorem ten_zpow_pos (k : ℤ) : (0 : ℚ) < 10 ^ k := zpow_pos (by norm_num) k

theorem ten_zpow_le {j k : ℤ} (h : j ≤ k) : (10 : ℚ) ^ j ≤ 10 ^ k :=
  zpow_le_zpow_right₀ (by norm_num) h

/-- A power of ten is further from one than the same power of two. -/
theorem two_zpow_le_ten_zpow {k : ℤ} (h : 0 ≤ k) : (2 : ℚ) ^ k ≤ 10 ^ k :=
  zpow_le_zpow_left₀ h (by norm_num) (by norm_num)

theorem ten_zpow_le_two_zpow_of_nonpos {k : ℤ} (h : k ≤ 0) : (10 : ℚ) ^ k ≤ 2 ^ k := by
  rw [← inv_le_inv₀ (two_zpow_pos k) (ten_zpow_pos k), ← zpow_neg, ← zpow_neg]
  exact two_zpow_le_ten_zpow (by omega)

/-- A power of ten with an exponent that is not negative, as the definitions compute it. -/
theorem ten_zpow_eq_tenTo {k : ℤ} (h : 0 ≤ k) : (10 : ℚ) ^ k = (tenTo k.toNat : ℚ) := by
  rw [show tenTo k.toNat = 10 ^ k.toNat from rfl, Nat.cast_pow, ← zpow_natCast,
    Int.toNat_of_nonneg h, Nat.cast_ofNat]

theorem ten_zpow_eq_inv_tenTo {k : ℤ} (h : k ≤ 0) : (10 : ℚ) ^ k = (tenTo (-k).toNat : ℚ)⁻¹ := by
  rw [← ten_zpow_eq_tenTo (by omega), zpow_neg, inv_inv]

theorem scaleByTen_pos (num : ℕ) {den : ℕ} (hden : 0 < den) (shift : ℤ) :
    0 < (scaleByTen num den shift).2 := by
  unfold scaleByTen
  split_ifs
  · exact hden
  · exact Nat.mul_pos hden (tenTo_pos _)

/-- Scaling multiplies by the power of ten. -/
theorem scaleByTen_eq (num den : ℕ) (shift : ℤ) :
    ((scaleByTen num den shift).1 : ℚ) / (scaleByTen num den shift).2 =
      num / den * 10 ^ shift := by
  unfold scaleByTen
  split_ifs with h
  · rw [ten_zpow_eq_tenTo h, Nat.cast_mul, div_mul_eq_mul_div]
  · rw [ten_zpow_eq_inv_tenTo (by omega), Nat.cast_mul, div_mul_eq_div_div, div_eq_mul_inv]

/-- One comparison of naturals tells whether a ratio reaches a power of ten. -/
theorem atLeast_iff {num den : ℕ} (hden : 0 < den) (k : ℤ) :
    decade.atLeast num den k = true ↔ (10 : ℚ) ^ k ≤ num / den := by
  have hd : (0 : ℚ) < den := by exact_mod_cast hden
  unfold decade.atLeast
  split_ifs with h
  · rw [decide_eq_true_iff, le_div_iff₀ hd, ten_zpow_eq_tenTo h, mul_comm]
    exact_mod_cast Iff.rfl
  · have hten : (0 : ℚ) < tenTo (-k).toNat := by exact_mod_cast tenTo_pos _
    rw [decide_eq_true_iff, le_div_iff₀ hd, ten_zpow_eq_inv_tenTo (by omega),
      inv_mul_le_iff₀ hten, mul_comm]
    exact_mod_cast Iff.rfl

/-- `30103 / 100000` is so close to the logarithm of two that, for exponents of moderate size, it
    misses a power of ten by one at most. Ten lies between `2 ^ (93 / 28)` and `2 ^ (196 / 59)`. -/
theorem ten_zpow_le_two_zpow {t l : ℤ} (h : 100000 * t ≤ 30103 * l) (hlow : -20000 ≤ l)
    (hhigh : l ≤ 100000) : (10 : ℚ) ^ (t - 1) ≤ 2 ^ l := by
  rcases le_or_gt 0 l with hl | hl
  · rcases le_or_gt 0 (t - 1) with ht | ht
    · -- Both sides to the power of 59, since `10 ^ 59` is just below `2 ^ 196`.
      refine (pow_le_pow_iff_left₀ (ten_zpow_pos _).le (two_zpow_pos _).le
        (show 59 ≠ 0 by decide)).mp ?_
      calc ((10 : ℚ) ^ (t - 1)) ^ 59 = ((10 : ℚ) ^ 59) ^ (t - 1) := by
            rw [← zpow_natCast, ← zpow_mul, mul_comm, zpow_mul, zpow_natCast]
        _ ≤ ((2 : ℚ) ^ 196) ^ (t - 1) := zpow_le_zpow_left₀ ht (by norm_num) (by norm_num)
        _ = 2 ^ (196 * (t - 1)) := by rw [zpow_mul]; norm_num
        _ ≤ 2 ^ (l * 59) := two_zpow_le (by omega)
        _ = (2 ^ l) ^ 59 := by rw [zpow_mul]; norm_cast
    · calc (10 : ℚ) ^ (t - 1) ≤ 10 ^ (0 : ℤ) := ten_zpow_le ht.le
        _ = 2 ^ (0 : ℤ) := by rw [zpow_zero, zpow_zero]
        _ ≤ 2 ^ l := two_zpow_le hl
  · -- Below one the powers go down, so now `10 ^ 28` has to be above `2 ^ 93`.
    refine (pow_le_pow_iff_left₀ (ten_zpow_pos _).le (two_zpow_pos _).le
      (show 93 ≠ 0 by decide)).mp ?_
    have hpowers : ((10 : ℚ) ^ 28) ^ l ≤ ((2 : ℚ) ^ 93) ^ l := by
      rw [← inv_le_inv₀ (zpow_pos (by norm_num) _) (zpow_pos (by norm_num) _), ← zpow_neg,
        ← zpow_neg]
      exact zpow_le_zpow_left₀ (by omega) (by norm_num) (by norm_num)
    calc ((10 : ℚ) ^ (t - 1)) ^ 93 = 10 ^ ((t - 1) * 93) := by rw [zpow_mul]; norm_cast
      _ ≤ 10 ^ (28 * l) := ten_zpow_le (by omega)
      _ = (10 ^ 28) ^ l := by rw [zpow_mul]; norm_cast
      _ ≤ (2 ^ 93) ^ l := hpowers
      _ = (2 ^ l) ^ 93 := by
          rw [← zpow_natCast, ← zpow_natCast, ← zpow_mul, mul_comm, zpow_mul]

/-- A ratio reaches the power of ten below its decade. -/
theorem ten_zpow_decade_le {num den : ℕ} (hnum : 0 < num) (hden : 0 < den)
    (hlow : -20000 ≤ floorLog2 num den) (hhigh : floorLog2 num den ≤ 100000) :
    (10 : ℚ) ^ (decade num den - 1) ≤ num / den := by
  have hratio : (0 : ℚ) < (num : ℚ) / den := by positivity
  have hlog : (2 : ℚ) ^ floorLog2 num den ≤ num / den := by
    rw [floorLog2_eq num den hnum hden]
    exact_mod_cast Int.zpow_log_le_self (b := 2) (by norm_num) hratio
  have hguess := Int.mul_fdiv_self_le (x := floorLog2 num den * 30103) (k := 100000) (by decide)
  unfold decade
  dsimp only
  split_ifs with hguessed hbelow
  · rw [add_sub_cancel_right]
    exact (atLeast_iff hden _).mp hguessed
  · exact (atLeast_iff hden _).mp hbelow
  · -- Both comparisons have failed, and the power below them was never compared.
    refine (ten_zpow_le_two_zpow (l := floorLog2 num den) ?_ hlow hhigh).trans hlog
    omega

namespace Decimal

/-- The exact value of a decimal. -/
def value (d : Decimal) : ℚ := d.significand * 10 ^ d.exponent

theorem value_pos_iff {d : Decimal} : 0 < d.value ↔ d.significand ≠ 0 := by
  rw [value, mul_pos_iff_of_pos_right (ten_zpow_pos _), Nat.cast_pos, Nat.pos_iff_ne_zero]

/-- Zeros at the end of the significand make up for a smaller exponent. -/
theorem value_mul_tenTo (m k : ℕ) (e : ℤ) : value ⟨m * 10 ^ k, e⟩ = value ⟨m, e + k⟩ := by
  rw [value, value, zpow_add₀ (by norm_num), zpow_natCast]
  push_cast
  ring

theorem value_go_stripZeros (d : Decimal) (fuel : ℕ) : (stripZeros.go d fuel).value = d.value := by
  induction fuel generalizing d with
  | zero => rfl
  | succ fuel ih =>
    unfold stripZeros.go
    split_ifs with h
    · simp only [Bool.and_eq_true, decide_eq_true_eq] at h
      have hten : d.significand / 10 * 10 ^ 1 = d.significand := by omega
      rw [ih, ← Nat.cast_one, ← value_mul_tenTo, hten]
    · rfl

theorem value_stripZeros (d : Decimal) : d.stripZeros.value = d.value := value_go_stripZeros d _

/-- A significand of so many digits lies between two powers of ten. -/
theorem significand_bounds {n : ℕ} (h : n ≠ 0) :
    10 ^ ((decimalDigits n).length - 1) ≤ n ∧ n < 10 ^ (decimalDigits n).length := by
  have hpos : 0 < (decimalDigits n).length := Nat.length_toDigits_pos
  have hbelow := fun k hk => @Nat.length_toDigits_le_iff 10 n k (by decide) hk
  refine ⟨?_, (hbelow _ hpos).mp le_rfl⟩
  rcases Nat.eq_zero_or_pos ((decimalDigits n).length - 1) with hzero | hmore
  · rw [hzero]
    exact Nat.pos_of_ne_zero h
  · by_contra hlt
    have := (hbelow _ hmore).mpr (not_le.mp hlt)
    change (decimalDigits n).length ≤ _ at this
    omega

/-- The digits and the exponent tell between which powers of ten a decimal lies. -/
theorem value_bounds {d : Decimal} (h : d.significand ≠ 0) :
    (10 : ℚ) ^ (d.digitCount + d.exponent - 1) ≤ d.value ∧
      d.value < 10 ^ (d.digitCount + d.exponent) := by
  rcases significand_bounds h with ⟨hlow, hhigh⟩
  have hpos : 0 < d.digitCount := Nat.length_toDigits_pos
  have hlow' : (10 : ℚ) ^ ((d.digitCount : ℤ) - 1) ≤ d.significand := by
    rw [← Nat.cast_pred hpos, zpow_natCast]
    exact_mod_cast hlow
  have hhigh' : (d.significand : ℚ) < 10 ^ (d.digitCount : ℤ) := by
    rw [zpow_natCast]
    exact_mod_cast hhigh
  rw [value, show (d.digitCount : ℤ) + d.exponent - 1 = d.digitCount - 1 + d.exponent by omega,
    zpow_add₀ (by norm_num), zpow_add₀ (by norm_num)]
  exact ⟨mul_le_mul_of_nonneg_right hlow' (ten_zpow_pos _).le,
    mul_lt_mul_of_pos_right hhigh' (ten_zpow_pos _)⟩

end Decimal

end Darkroom
