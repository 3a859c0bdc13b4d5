import Darkroom.Proofs.Numeric.Arithmetic

/-!
# Nearness

How far numbers with 24 bits stray from exact results.

`Near x q ε` says that a number is finite and its value is within `ε` of `q`. Each operation carries
the distances of its operands to its result and adds one rounding. The rounding is counted in
`roundoff`, half the last place of numbers between a half and one: a result below `2 ^ k` is moved
by `2 ^ k` of these at most. The exponent `k` is given by hand where a lemma is used, and so are the
distances; a chain of operations is then a chain of inequalities between given rationals.

A product and a quotient need to know how large the exact operands are, because each distance is
multiplied by the other operand.

## Main definitions

* `roundoff`: The greatest rounding of numbers below one.
* `Near`: A number is finite and close to a rational.

## Theorems

* `abs_round_sub_le_roundoff`: A rounding below a power of two, counted in roundoffs.
* `abs_round_sub_le_roundoff_mul`: A rounding counted in roundoffs of the number itself.
* `Near.add`, `Near.sub`, `Near.mul`, `Near.div`: Distances through the operations.
-/

namespace Darkroom

/-- Half of the last place that numbers between a half and one have. -/
def roundoff : ℚ := 1 / 2 ^ 25

namespace Binary

/-- A number is finite, and its value is within `ε` of `q`. -/
def Near (x : Single) (q ε : ℚ) : Prop := ∃ v, x.Denotes v ∧ |v - q| ≤ ε

theorem greatest_binary32 : (2 : ℚ) ^ 127 ≤ binary32.greatest := by
  rw [BinaryFormat.greatest, binary32]
  norm_num

theorem abs_round_sub_le_roundoff {q : ℚ} (k : ℕ) (h : |q| ≤ 2 ^ k) :
    |binary32.round q - q| ≤ 2 ^ k * roundoff := by
  have hmin : binary32.minExponent + binary32.precision ≤ (k : ℤ) := by
    rw [binary32]
    norm_num
  have hround := binary32.abs_round_sub_le_of_abs_le hmin (by exact_mod_cast h)
  have hprec : (2 : ℚ) ^ ((k : ℤ) - binary32.precision) / 2 = 2 ^ k * roundoff := by
    rw [zpow_sub₀ (by norm_num), zpow_natCast, roundoff, binary32]
    norm_num
    ring
  rwa [hprec] at hround

/-- The same for numbers that are not too small, counted in parts of the number itself. -/
theorem abs_round_sub_le_roundoff_mul {q : ℚ} (h : 1 / 2 ^ 126 ≤ |q|) :
    |binary32.round q - q| ≤ 2 * roundoff * |q| := by
  have hmin : (2 : ℚ) ^ (binary32.minExponent + binary32.precision - 1) = 1 / 2 ^ 126 := by
    rw [binary32]
    norm_num
  have hround := binary32.abs_round_sub_le_mul (hmin.trans_le h)
  have hprec : (2 : ℚ) ^ (-binary32.precision : ℤ) = 2 * roundoff := by
    rw [binary32, roundoff]
    norm_num
  rwa [hprec, mul_comm] at hround

theorem abs_round_le_greatest {q : ℚ} (k : ℕ) (hk : k ≤ 127) (h : |q| ≤ 2 ^ k) :
    |binary32.round q| ≤ binary32.greatest := by
  have hr : binary32.Representable (2 ^ (k : ℤ)) :=
    BinaryFormat.representable_two_zpow (le_trans (by decide) k.cast_nonneg)
  rw [zpow_natCast] at hr
  have hle : (2 : ℚ) ^ k ≤ binary32.greatest :=
    (pow_le_pow_right₀ (by norm_num) hk).trans greatest_binary32
  -- The power of two is a number of the format, so rounding does not pass it on either side.
  exact (BinaryFormat.abs_round_le hr h).trans hle

/-- A rounded result is as near as the exact one, and one rounding more. -/
theorem near_of_denotes_round {x : Single} {v q ε δ : ℚ} (k : ℕ)
    (hx : x.Denotes (binary32.round v)) (hv : |v - q| ≤ δ) (hk : |v| ≤ 2 ^ k)
    (hε : δ + 2 ^ k * roundoff ≤ ε) : Near x q ε := by
  refine ⟨_, hx, ?_⟩
  have := abs_sub_le (binary32.round v) v q
  have := abs_round_sub_le_roundoff k hk
  linarith

variable {x y : Single} {p q α β ε : ℚ}

theorem Denotes.near (h : x.Denotes q) (hε : 0 ≤ ε) : Near x q ε :=
  ⟨q, h, by rwa [sub_self, abs_zero]⟩

theorem Near.mono (h : Near x q α) (hle : α ≤ ε) : Near x q ε := by
  rcases h with ⟨v, hv, hd⟩
  exact ⟨v, hv, hd.trans hle⟩

/-- A number near one rational is near any other that is close to it. -/
theorem Near.congr (h : Near x p α) (hd : |p - q| ≤ β) (hε : α + β ≤ ε) : Near x q ε := by
  rcases h with ⟨v, hv, hp⟩
  refine ⟨v, hv, ?_⟩
  have := abs_sub_le v p q
  linarith

theorem Near.add (k : ℕ) (hx : Near x p α) (hy : Near y q β) (hk : |p + q| + (α + β) ≤ 2 ^ k)
    (hε : α + β + 2 ^ k * roundoff ≤ ε) (h127 : k ≤ 127) :
    Near (x + y) (p + q) ε := by
  rcases hx with ⟨v, hv, hvp⟩
  rcases hy with ⟨w, hw, hwq⟩
  have hd : |v + w - (p + q)| ≤ α + β := by
    rw [add_sub_add_comm]
    exact (abs_add_le _ _).trans (add_le_add hvp hwq)
  have hsize : |v + w| ≤ 2 ^ k := by
    have := abs_sub_abs_le_abs_sub (v + w) (p + q)
    linarith
  exact near_of_denotes_round k (hv.add hw (abs_round_le_greatest k h127 hsize)) hd hsize hε

theorem Near.neg (h : Near x q α) : Near (-x) (-q) α := by
  rcases h with ⟨v, hv, hd⟩
  refine ⟨-v, hv.neg, ?_⟩
  rwa [neg_sub_neg, abs_sub_comm]

theorem Near.sub (k : ℕ) (hx : Near x p α) (hy : Near y q β) (hk : |p - q| + (α + β) ≤ 2 ^ k)
    (hε : α + β + 2 ^ k * roundoff ≤ ε) (h127 : k ≤ 127) :
    Near (x - y) (p - q) ε := by
  rw [sub_eq_add_neg] at hk ⊢
  exact hx.add k hy.neg hk hε h127

/-- The distance of a product: each distance is multiplied by the other factor. -/
theorem abs_mul_sub_mul_le {v w P Q : ℚ} (hv : |v - p| ≤ α) (hw : |w - q| ≤ β) (hP : |p| ≤ P)
    (hQ : |q| ≤ Q) : |v * w - p * q| ≤ P * β + Q * α + α * β := by
  have hα := (abs_nonneg _).trans hv
  have hP0 := (abs_nonneg _).trans hP
  have hQ0 := (abs_nonneg _).trans hQ
  -- One factor strays, then the other, and then both at once.
  have hsplit : v * w - p * q = p * (w - q) + q * (v - p) + (v - p) * (w - q) := by ring
  have h1 : |p * (w - q)| ≤ P * β := by
    rw [abs_mul]
    exact mul_le_mul hP hw (abs_nonneg _) hP0
  have h2 : |q * (v - p)| ≤ Q * α := by
    rw [abs_mul]
    exact mul_le_mul hQ hv (abs_nonneg _) hQ0
  have h3 : |(v - p) * (w - q)| ≤ α * β := by
    rw [abs_mul]
    exact mul_le_mul hv hw (abs_nonneg _) hα
  rw [hsplit]
  exact (abs_add_le _ _).trans (add_le_add ((abs_add_le _ _).trans (add_le_add h1 h2)) h3)

theorem Near.mul (k : ℕ) {P Q : ℚ} (hx : Near x p α) (hy : Near y q β) (hP : |p| ≤ P)
    (hQ : |q| ≤ Q) (hk : P * Q + (P * β + Q * α + α * β) ≤ 2 ^ k)
    (hε : P * β + Q * α + α * β + 2 ^ k * roundoff ≤ ε) (h127 : k ≤ 127) :
    Near (x * y) (p * q) ε := by
  rcases hx with ⟨v, hv, hvp⟩
  rcases hy with ⟨w, hw, hwq⟩
  have hd := abs_mul_sub_mul_le hvp hwq hP hQ
  have hpq : |p * q| ≤ P * Q := by
    rw [abs_mul]
    exact mul_le_mul hP hQ (abs_nonneg _) ((abs_nonneg _).trans hP)
  have hsize : |v * w| ≤ 2 ^ k := by
    have := abs_sub_abs_le_abs_sub (v * w) (p * q)
    linarith
  exact near_of_denotes_round k (hv.mul hw (abs_round_le_greatest k h127 hsize)) hd hsize hε

/-- The distance of a quotient: that of the divisor counts as often as the quotient is large, and
    all of it is divided once more. -/
theorem abs_div_sub_div_le {v w Q R : ℚ} (hv : |v - p| ≤ α) (hw : |w - q| ≤ β) (hQ : Q ≤ |q|)
    (hβ : β < Q) (hR : |p / q| ≤ R) : |v / w - p / q| ≤ (α + R * β) / (Q - β) := by
  have hβ0 := (abs_nonneg _).trans hw
  -- The divisor cannot stray as far as zero.
  have hw' : Q - β ≤ |w| := by
    have := abs_sub_abs_le_abs_sub q w
    rw [abs_sub_comm] at hw
    linarith
  have hw0 : 0 < |w| := by linarith
  have hq0 : 0 < |q| := by linarith
  -- At the common divisor `w`, a stray divisor counts as a stray dividend.
  have hsplit : v / w - p / q = ((v - p) - p / q * (w - q)) / w := by
    have := abs_pos.mp hw0
    have := abs_pos.mp hq0
    field_simp
    ring
  have hnum : |(v - p) - p / q * (w - q)| ≤ α + R * β := by
    refine (abs_sub _ _).trans (add_le_add hv ?_)
    rw [abs_mul]
    exact mul_le_mul hR hw (abs_nonneg _) ((abs_nonneg _).trans hR)
  rw [hsplit, abs_div]
  exact div_le_div₀ ((abs_nonneg _).trans hnum) hnum (by linarith) hw'

theorem Near.div (k : ℕ) {Q R : ℚ} (hx : Near x p α) (hy : Near y q β) (hQ : Q ≤ |q|)
    (hβ : β < Q) (hR : |p / q| ≤ R) (hk : R + (α + R * β) / (Q - β) ≤ 2 ^ k)
    (hε : (α + R * β) / (Q - β) + 2 ^ k * roundoff ≤ ε) (h127 : k ≤ 127) :
    Near (x / y) (p / q) ε := by
  rcases hx with ⟨v, hv, hvp⟩
  rcases hy with ⟨w, hw, hwq⟩
  have hd := abs_div_sub_div_le hvp hwq hQ hβ hR
  have hw0 : w ≠ 0 := by
    rintro rfl
    rw [zero_sub, abs_neg] at hwq
    linarith
  have hsize : |v / w| ≤ 2 ^ k := by
    have := abs_sub_abs_le_abs_sub (v / w) (p / q)
    linarith
  exact near_of_denotes_round k (hv.div hw hw0 (abs_round_le_greatest k h127 hsize)) hd hsize hε

end Binary

end Darkroom
