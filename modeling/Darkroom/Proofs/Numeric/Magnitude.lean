import Darkroom.Proofs.Numeric.Arithmetic

/-!
# Magnitudes

Operations that cannot leave the format.

A product with a share, a number between minus one and one, is not larger than the other operand. A
sum with one is larger, but even at the greatest number it is rounded back: the next number that the
format would have is further away than one. So both are finite whenever their operands are, however
large these are, and nothing has to be assumed of a factor but that it is finite.

Whole numbers of fewer bits than a significand has are in no danger either. They and their
differences are numbers of the format, and what is a number of the format is not rounded.

## Theorems

* `BinaryFormat.round_one_add_greatest`: One is lost beside the greatest number.
* `Binary.Denotes.mul_share`, `Binary.Denotes.one_add`: The two operations.
* `Binary.denotes_ofInt_of_lt`: A whole number that a significand holds.
* `Binary.Denotes.sub_exact`, `Binary.Denotes.convert_exact`: Results that are not rounded.
-/

namespace Darkroom

namespace BinaryFormat

variable {f : BinaryFormat}

theorem representable_greatest : f.Representable f.greatest := by
  refine ⟨2 ^ f.precision - 1, f.maxExponent, ?_, f.minExponent_le, ?_⟩
  · have hone : (1 : ℤ) ≤ 2 ^ f.precision := one_le_pow₀ (by norm_num)
    rw [abs_of_nonneg (by omega)]
    omega
  · rw [greatest]
    push_cast
    rfl

theorem one_le_greatest (h : 0 ≤ f.maxExponent) : 1 ≤ f.greatest := by
  have hprec : (2 : ℚ) ≤ 2 ^ f.precision := le_self_pow₀ (by norm_num) f.precision_pos.ne'
  exact one_le_mul_of_one_le_of_one_le (by linarith) (one_le_zpow₀ (by norm_num) h)

/-- One more than the greatest number has the same last place. -/
theorem place_one_add_greatest (h : 0 < f.maxExponent) :
    f.place (1 + f.greatest) = f.maxExponent := by
  have hone : (1 : ℚ) < 2 ^ f.maxExponent := one_lt_zpow₀ (by norm_num) h
  have hgreatest : f.greatest = 2 ^ (f.maxExponent + f.precision) - 2 ^ f.maxExponent := by
    rw [greatest, sub_mul, one_mul, add_comm, zpow_add₀ (by norm_num), zpow_natCast]
  have hlead : (2 : ℚ) ^ (f.maxExponent + f.precision)
      = 2 * 2 ^ (f.maxExponent + f.precision - 1) := by
    rw [← zpow_one_add₀ (by norm_num)]
    congr 1
    omega
  have hprec := f.precision_pos
  have hplace : (2 : ℚ) ^ f.maxExponent ≤ 2 ^ (f.maxExponent + f.precision - 1) :=
    two_zpow_le (by omega)
  have hpos : 0 < 1 + f.greatest := by linarith
  -- The leading bit is that of the greatest number.
  have hlow := (Int.zpow_le_iff_le_log (b := 2) (by norm_num) hpos
    (x := f.maxExponent + f.precision - 1)).mp (by push_cast; linarith)
  have hhigh := (Int.lt_zpow_iff_log_lt (b := 2) (by norm_num) hpos
    (x := f.maxExponent + f.precision)).mp (by push_cast; linarith)
  have hmin := f.minExponent_le
  rw [place, abs_of_pos hpos, f.precision_sub_one]
  omega

/-- One is lost beside the greatest number. -/
theorem round_one_add_greatest (h : 1 < f.maxExponent) : f.round (1 + f.greatest) = f.greatest := by
  have htwo : (2 : ℚ) < 2 ^ f.maxExponent := by
    have := zpow_lt_zpow_right₀ (a := (2 : ℚ)) (by norm_num) h
    rwa [zpow_one] at this
  have hpos := two_zpow_pos f.maxExponent
  -- In last places, one is less than a half.
  have hsignificand : f.significand (1 + f.greatest) = 2 ^ f.precision - 1 := by
    rw [significand, place_one_add_greatest (by omega)]
    refine roundEven_eq_of_abs_sub_lt ?_
    have hrest : (1 + f.greatest) / 2 ^ f.maxExponent - ((2 ^ f.precision - 1 : ℤ) : ℚ)
        = 1 / 2 ^ f.maxExponent := by
      rw [greatest, add_div, mul_div_cancel_right₀ _ hpos.ne']
      push_cast
      ring
    rw [hrest, abs_of_pos (by positivity)]
    exact one_div_lt_one_div_of_lt (by norm_num) htwo
  rw [round, hsignificand, place_one_add_greatest (by omega), greatest]
  push_cast
  rfl

/-- So a sum with one stays within the format. -/
theorem abs_round_one_add_le (h : 1 < f.maxExponent) {q : ℚ} (hq : |q| ≤ f.greatest) :
    |f.round (1 + q)| ≤ f.greatest := by
  rcases abs_le.mp hq with ⟨hlow, hhigh⟩
  refine abs_le.mpr ⟨le_round_of_le representable_greatest.neg (by linarith), ?_⟩
  rw [← round_one_add_greatest h]
  exact round_mono (by linarith)

end BinaryFormat

namespace Binary

variable {f : BinaryFormat} {x y : Binary f} {p q : ℚ}

/-- A share of a number is not larger than the number. -/
theorem Denotes.mul_share (hx : x.Denotes p) (hy : y.Denotes q) (hq : |q| ≤ 1) :
    (x * y).Denotes (f.round (p * q)) := by
  refine hx.mul hy (BinaryFormat.abs_round_le BinaryFormat.representable_greatest ?_)
  rw [abs_mul]
  exact (mul_le_of_le_one_right (abs_nonneg p) hq).trans hx.abs_le_greatest

theorem Denotes.share_mul (hx : x.Denotes p) (hy : y.Denotes q) (hp : |p| ≤ 1) :
    (x * y).Denotes (f.round (p * q)) := by
  refine hx.mul hy (BinaryFormat.abs_round_le BinaryFormat.representable_greatest ?_)
  rw [abs_mul]
  exact (mul_le_of_le_one_left (abs_nonneg q) hp).trans hy.abs_le_greatest

/-- One more than a number is still within the format. -/
theorem Denotes.one_add (hx : x.Denotes q) (h1 : (1 : Binary f).Denotes 1)
    (hf : 1 < f.maxExponent) : (1 + x).Denotes (f.round (1 + q)) :=
  h1.add hx (BinaryFormat.abs_round_one_add_le hf hx.abs_le_greatest)

/-- A whole number that a significand holds is kept as it is. -/
theorem denotes_ofInt_of_lt {n : ℤ} (h : |n| < 2 ^ f.precision) (hmin : f.minExponent ≤ 0)
    (hmax : 0 ≤ f.maxExponent) : (ofInt n : Binary f).Denotes n := by
  refine denotes_ofInt n h.le hmin ?_
  have hone : (1 : ℚ) ≤ 2 ^ f.maxExponent := one_le_zpow₀ (by norm_num) hmax
  have hn : |(n : ℚ)| ≤ 2 ^ f.precision - 1 := by exact_mod_cast Int.le_sub_one_of_lt h
  exact hn.trans (le_mul_of_one_le_right ((abs_nonneg _).trans hn) hone)

theorem denotes_one_double : (1 : Double).Denotes 1 :=
  denotes_ofInt_of_lt (n := 1) (by decide) (by decide) (by decide)

/-- The value of a number is not changed by rounding. -/
theorem Denotes.round_eq {z : Binary f} (hz : z.Denotes q) :
    f.round q = q ∧ |f.round q| ≤ f.greatest := by
  have hround := BinaryFormat.round_of_representable hz.representable
  exact ⟨hround, hround.symm ▸ hz.abs_le_greatest⟩

/-- A difference that some number has is found without loss. -/
theorem Denotes.sub_exact {z : Binary f} (hx : x.Denotes p) (hy : y.Denotes q)
    (hz : z.Denotes (p - q)) : (x - y).Denotes (p - q) := by
  rcases hz.round_eq with ⟨hround, hfit⟩
  have hd := hx.sub hy hfit
  rwa [hround] at hd

/-- A value that some number of another format has is taken over without loss. -/
theorem Denotes.convert_exact {g : BinaryFormat} {z : Binary g} (hx : x.Denotes q)
    (hz : z.Denotes q) : (x.convert : Binary g).Denotes q := by
  rcases hz.round_eq with ⟨hround, hfit⟩
  have hd := hx.convert hfit
  rwa [hround] at hd

end Binary

end Darkroom
