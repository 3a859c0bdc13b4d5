import Darkroom.Proofs.Numeric.Rounding

/-!
# The Grid of a Format

Numbers of a format as whole multiples of powers of two, and what is exact because of it.

All numbers of a format are multiples of its least place, and those of a certain size are multiples
of a place that belongs to the size. The other way round, a multiple that is not too large is a
number of the format. Sums and differences of multiples are multiples again, so this is how a result
is shown not to be rounded at all, or not to be rounded away.

## Theorems

* `Representable.exists_multiple_of_le`: Numbers from a size on are multiples of a place.
* `representable_of_multiple`: A multiple that is not too large is a number of the format.
* `round_sub_pos`: Numbers that differ have a difference that is not rounded away.
* `round_pos`: More than half of the least place is not rounded away.
* `round_le_of_le_midpoint`: Half a place above an even multiple, a number is rounded down to it.
* `Representable.le_abs_sub`: How far a number of the format is from all others.
* `round_eq_of_close`: What is closer than half of that is rounded to it.
-/

namespace Darkroom

namespace BinaryFormat

variable {f : BinaryFormat} {p q : ℚ}

/-- A multiple of a power of two is one of every smaller power. -/
theorem exists_multiple_of_zpow_le {d e : ℤ} (h : d ≤ e) (n : ℤ) :
    ∃ m : ℤ, (n : ℚ) * 2 ^ e = m * 2 ^ d :=
  ⟨n * 2 ^ (e - d).toNat, by rw [two_zpow_eq_mul h, ← mul_assoc, ← Int.cast_mul]⟩

/-- Every number of the format is a whole number of least places. -/
theorem Representable.exists_multiple (h : f.Representable q) :
    ∃ n : ℤ, q = n * 2 ^ f.minExponent := by
  rcases h with ⟨n, e, -, hmin, rfl⟩
  exact exists_multiple_of_zpow_le hmin n

/-- Every number of the format is a whole number of its own last places. -/
theorem Representable.exists_multiple_place (h : f.Representable q) :
    ∃ n : ℤ, q = n * 2 ^ f.place q := ⟨f.significand q, (round_of_representable h).symm⟩

/-- Numbers from a size on have no finer place than belongs to the size. -/
theorem le_place_of_le {d : ℤ} (h : 2 ^ (d + f.precision - 1) ≤ |q|) : d ≤ f.place q := by
  have hpos : 0 < |q| := (two_zpow_pos _).trans_le h
  have hlog := (Int.zpow_le_iff_le_log (b := 2) (by norm_num) hpos).mp (by exact_mod_cast h)
  rw [place, f.precision_sub_one]
  omega

/-- Numbers that use all bits of a significand from some place on are multiples of that place. -/
theorem Representable.exists_multiple_of_le {d : ℤ} (h : f.Representable q)
    (hd : 2 ^ (d + f.precision - 1) ≤ |q|) : ∃ n : ℤ, q = n * 2 ^ d := by
  rcases h.exists_multiple_place with ⟨n, hn⟩
  rw [hn]
  exact exists_multiple_of_zpow_le (le_place_of_le hd) n

/-- A multiple of a place that leaves no more bits than the format has is a number of it. -/
theorem representable_of_multiple {n d : ℤ} (hmin : f.minExponent ≤ d) (hq : q = n * 2 ^ d)
    (h : |q| ≤ 2 ^ (d + f.precision)) : f.Representable q := by
  refine ⟨n, d, ?_, hmin, hq⟩
  rw [hq, abs_mul, abs_of_pos (two_zpow_pos d), add_comm d, zpow_add₀ (by norm_num),
    mul_le_mul_iff_left₀ (two_zpow_pos d)] at h
  exact_mod_cast h

/-- Twice a number of the format, as long as the exponent is not bounded above. -/
theorem Representable.two_mul (h : f.Representable q) : f.Representable (2 * q) := by
  rcases h with ⟨n, e, hn, hmin, rfl⟩
  exact ⟨n, e + 1, hn, by omega, by rw [zpow_add_one₀ (by norm_num)]; ring⟩

/-- Of two multiples of a place, one that is less than a place above the other is not above it. -/
theorem multiple_le_of_lt {d m n : ℤ} (h : (m : ℚ) * 2 ^ d < n * 2 ^ d + 2 ^ d) :
    (m : ℚ) * 2 ^ d ≤ n * 2 ^ d := by
  have hpos := two_zpow_pos d
  rw [← add_one_mul, mul_lt_mul_iff_left₀ hpos] at h
  have hmn : m < n + 1 := by exact_mod_cast h
  exact mul_le_mul_of_nonneg_right (by exact_mod_cast Int.lt_add_one_iff.mp hmn) hpos.le

/-- A number of the format above zero has at least one least place. -/
theorem Representable.two_zpow_le (h : f.Representable q) (hq : 0 < q) :
    2 ^ f.minExponent ≤ q := by
  have hpos := two_zpow_pos f.minExponent
  rcases h.exists_multiple with ⟨n, rfl⟩
  have hn : 0 < n := by exact_mod_cast pos_of_mul_pos_left hq hpos.le
  exact le_mul_of_one_le_left hpos.le (by exact_mod_cast hn)

/-- Numbers of the format that differ have a difference that is not rounded away. -/
theorem round_sub_pos (hp : f.Representable p) (hq : f.Representable q) (h : q < p) :
    0 < f.round (p - q) := by
  have hpos := two_zpow_pos f.minExponent
  refine hpos.trans_le (le_round_of_le (representable_two_zpow le_rfl) ?_)
  rcases hp.exists_multiple with ⟨m, rfl⟩
  rcases hq.exists_multiple with ⟨n, rfl⟩
  have hmn : n + 1 ≤ m := by exact_mod_cast lt_of_mul_lt_mul_right h hpos.le
  have hone : (1 : ℚ) ≤ m - n := by exact_mod_cast (show 1 ≤ m - n by omega)
  rw [← sub_mul]
  exact le_mul_of_one_le_left hpos.le hone

/-- More than half of the least place is not rounded away: the least place itself is closer than
    zero. -/
theorem round_pos (h : 2 ^ f.minExponent < 2 * q) : 0 < f.round q := by
  have hpos := two_zpow_pos f.minExponent
  have hleast : f.Representable (2 ^ f.minExponent) := representable_two_zpow le_rfl
  rcases le_or_gt (2 ^ f.minExponent) q with hle | hlt
  · exact hpos.trans_le (le_round_of_le hleast hle)
  · have hnear := abs_round_sub_le_abs_sub (q := q) hleast
    rw [abs_of_pos (sub_pos.mpr hlt)] at hnear
    linarith [(abs_le.mp hnear).1]

/-- Half a place above an even multiple of the place, a number is still rounded down to it. If its
    own place is coarser, the next number of the format is further away than that. -/
theorem round_le_of_le_midpoint {d n : ℤ} (hn : f.Representable (n * 2 ^ (d + 1)))
    (hplace : d ≤ f.place q) (h : q ≤ n * 2 ^ (d + 1) + 2 ^ d / 2) :
    f.round q ≤ n * 2 ^ (d + 1) := by
  have hpos := two_zpow_pos d
  have hnext : (2 : ℚ) ^ (d + 1) = 2 * 2 ^ d := by
    rw [zpow_add_one₀ (by norm_num), mul_comm]
  rcases hplace.eq_or_lt with heq | hlt
  · have htie : IsNearestEven (2 * n) (((2 * n : ℤ) : ℚ) + 1 / 2) :=
      Or.inr ⟨by rw [sub_add_cancel_left, abs_neg, abs_of_pos (by norm_num)], even_two_mul n⟩
    have hsignificand : f.significand q ≤ 2 * n := by
      rw [htie.eq_roundEven]
      refine roundEven_mono ?_
      rw [← heq, div_le_iff₀ hpos]
      rw [hnext] at h
      push_cast
      linarith
    have hle : (f.significand q : ℚ) ≤ ((2 * n : ℤ) : ℚ) := by exact_mod_cast hsignificand
    rw [round, ← heq, hnext]
    push_cast at hle
    linarith [mul_le_mul_of_nonneg_right hle hpos.le]
  · rcases le_or_gt q (n * 2 ^ (d + 1)) with hle | hgt
    · exact round_le_of_le hn hle
    have hnear := abs_round_sub_le_abs_sub (q := q) hn
    rw [abs_of_neg (sub_neg.mpr hgt)] at hnear
    have hmultiple : ∃ m : ℤ, f.round q = m * 2 ^ (d + 1) :=
      exists_multiple_of_zpow_le (by omega) (f.significand q)
    rcases hmultiple with ⟨m, hm⟩
    have hbelow : f.round q < n * 2 ^ (d + 1) + 2 ^ (d + 1) := by
      linarith [(abs_le.mp hnear).2]
    rw [hm] at hbelow ⊢
    exact multiple_le_of_lt hbelow

/-- Different multiples of a place are a place apart. -/
theorem le_abs_sub_of_multiples {d m n : ℤ} (h : (m : ℚ) * 2 ^ d ≠ n * 2 ^ d) :
    2 ^ d ≤ |(m : ℚ) * 2 ^ d - n * 2 ^ d| := by
  have hpos := two_zpow_pos d
  have hne : m - n ≠ 0 := fun heq => h (by rw [sub_eq_zero.mp heq])
  have hone : (1 : ℚ) ≤ |(m : ℚ) - n| := by exact_mod_cast Int.one_le_abs hne
  rw [← sub_mul, abs_mul, abs_of_pos hpos]
  exact le_mul_of_one_le_left hpos.le hone

/-- A number of the format keeps a fixed part of its size from all others. Only a power of two has a
    neighbour that close, the one below it, where the places become finer. -/
theorem Representable.le_abs_sub (hp : f.Representable p) (hq : f.Representable q) (h : p ≠ q)
    (hq0 : 0 < q) : q * 2 ^ (-f.precision : ℤ) ≤ |p - q| := by
  have hshare := two_zpow_pos (-f.precision : ℤ)
  have hone : (2 : ℚ) ^ (-f.precision : ℤ) ≤ 1 := zpow_le_one_of_nonpos₀ (by norm_num) (by omega)
  have hscale (r : ℚ) : (2 : ℚ) ^ (f.place r + f.precision) * 2 ^ (-f.precision : ℤ) =
      2 ^ f.place r := by
    rw [← zpow_add₀ (by norm_num)]
    congr 1
    omega
  rcases le_or_gt p 0 with hp0 | hp0
  · -- Zero is further away than that.
    rw [abs_of_neg (by linarith)]
    linarith [mul_le_of_le_one_right hq0.le hone]
  rcases le_or_gt (f.place q) (f.place p) with hle | hlt
  · -- Both are multiples of the place of `q`, which is more than the part.
    rcases hp.exists_multiple_place with ⟨n, hn⟩
    rcases hq.exists_multiple_place with ⟨k, hk⟩
    rcases exists_multiple_of_zpow_le hle n with ⟨m, hm⟩
    have hbound := f.abs_lt_two_zpow_place q
    rw [abs_of_pos hq0] at hbound
    have hpart := mul_le_mul_of_nonneg_right hbound.le hshare.le
    rw [hscale] at hpart
    rw [hn, hm] at h ⊢
    nth_rewrite 3 [hk]
    refine hpart.trans (le_abs_sub_of_multiples ?_)
    rwa [← hk]
  · -- A power of two lies between them, and it is a multiple of the finer place.
    rcases hp.exists_multiple_place with ⟨n, hn⟩
    have hbelow := f.abs_lt_two_zpow_place p
    rw [abs_of_pos hp0] at hbelow
    have habove : (2 : ℚ) ^ (f.place p + f.precision) ≤ q := by
      have hlead := f.two_zpow_place_le hq0.ne' ((f.minExponent_le_place p).trans_lt hlt)
      rw [abs_of_pos hq0] at hlead
      exact (Darkroom.two_zpow_le (by omega)).trans hlead
    have hpower := two_zpow_eq_mul (d := f.place p) (e := f.place p + f.precision) (by omega)
    have hgap := le_abs_sub_of_multiples (d := f.place p) (m := n)
      (n := 2 ^ (f.place p + f.precision - f.place p).toNat)
      (by rw [← hn, ← hpower]; exact hbelow.ne)
    rw [← hn, ← hpower, abs_of_neg (by linarith)] at hgap
    rw [abs_of_neg (by linarith)]
    have hrest := mul_le_of_le_one_right (sub_nonneg.mpr habove) hone
    rw [sub_mul, hscale] at hrest
    linarith

/-- So what lies within half of that part of a number of the format is rounded to it. -/
theorem round_eq_of_close (hp : f.Representable p) (hp0 : 0 < p)
    (h : 2 * |q - p| < p * 2 ^ (-f.precision : ℤ)) : f.round q = p := by
  by_contra hne
  have hgap := (representable_round q).le_abs_sub hp hne hp0
  have hnear := abs_round_sub_le_abs_sub (q := q) hp
  have htriangle := abs_sub_le (f.round q) q p
  rw [abs_sub_comm p q] at hnear
  linarith

end BinaryFormat

end Darkroom
