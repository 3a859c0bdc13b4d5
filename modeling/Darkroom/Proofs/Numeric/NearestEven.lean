import Darkroom.Numeric.Binary
import Mathlib.Algebra.Order.Floor.Ring
import Mathlib.Data.Rat.Floor
import Mathlib.Tactic.FieldSimp
import Mathlib.Tactic.Linarith
import Mathlib.Tactic.NormNum
import Mathlib.Tactic.Positivity

/-!
# Nearest Integers

The nearest integer to a rational, with ties to the even one, and that `nearestEven` finds it.

Rounding is needed twice in floating point: on the significand of every result, and when a number
is moved to a whole one. Both are a quotient of naturals in the definitions, and a rational here,
so that signs, order and distance can be argued about without a case for each way of writing the
same quotient.

The relation `IsNearestEven` comes first and the function second. At most one integer stands in
the relation, so negation and order are facts about distances, and the function never has to be
opened to obtain them.

## Main definitions

* `IsNearestEven`: An integer is nearest to a rational, and even if it shares that place.
* `roundEven`: The nearest integer, ties to even.

## Theorems

* `IsNearestEven.unique`: There is only one nearest integer.
* `isNearestEven_roundEven`: `roundEven` finds it.
* `nearestEven_eq_roundEven`: `nearestEven` is the same function, for quotients of naturals.
* `roundEven_neg`: Rounding is symmetric around zero.
* `roundEven_mono`: Rounding keeps the order.
* `abs_roundEven_sub_le`: Rounding moves a number by a half at most.
* `abs_roundEven_sub_le_abs_sub`: No other integer is closer.
-/

namespace Darkroom

/-- An integer is nearest to a rational: closer than a half, or a half away and even. -/
def IsNearestEven (n : ℤ) (q : ℚ) : Prop :=
  |(n : ℚ) - q| < 1 / 2 ∨ |(n : ℚ) - q| = 1 / 2 ∧ Even n

theorem IsNearestEven.abs_sub_le {n : ℤ} {q : ℚ} (h : IsNearestEven n q) :
    |(n : ℚ) - q| ≤ 1 / 2 := by
  rcases h with h | h
  · exact h.le
  · exact h.1.le

/-- There is only one nearest integer. Two of them are at most one apart; if they are neighbours
    both are a tie, and neighbours are not both even. -/
theorem IsNearestEven.unique {n m : ℤ} {q : ℚ} (hn : IsNearestEven n q)
    (hm : IsNearestEven m q) : n = m := by
  wlog hlt : n < m generalizing n m with H
  · rcases lt_trichotomy n m with h | h | h
    · exact H hn hm h
    · exact h
    · exact (H hm hn h).symm
  exfalso
  -- Both lie within a half of `q`, so they are neighbours.
  have hn2 := abs_le.mp hn.abs_sub_le
  have hm2 := abs_le.mp hm.abs_sub_le
  have hle : m ≤ n + 1 := by
    have : (m : ℚ) ≤ n + 1 := by linarith
    exact_mod_cast this
  have hmn : m = n + 1 := by omega
  have hcast : (m : ℚ) = n + 1 := by exact_mod_cast hmn
  -- Neighbours leave `q` no place but the middle between them.
  have hn3 : |(n : ℚ) - q| = 1 / 2 := by
    rw [abs_of_nonpos (by linarith)]
    linarith
  have hm3 : |(m : ℚ) - q| = 1 / 2 := by
    rw [abs_of_nonneg (by linarith)]
    linarith
  -- Two ties would make two neighbours even.
  rcases hn with hn | hn
  · linarith
  rcases hm with hm | hm
  · linarith
  have := hn.2
  have := hm.2
  rw [hmn, Int.even_add_one] at this
  exact this hn.2

theorem IsNearestEven.neg {n : ℤ} {q : ℚ} (h : IsNearestEven n q) : IsNearestEven (-n) (-q) := by
  have habs : |((-n : ℤ) : ℚ) - -q| = |(n : ℚ) - q| := by
    rw [Int.cast_neg, ← abs_neg]
    congr 1
    ring
  rw [IsNearestEven, habs, even_neg]
  exact h

/-- The integer nearest to a rational, ties to even. -/
def roundEven (q : ℚ) : ℤ :=
  if 2 * (q - ⌊q⌋) < 1 then ⌊q⌋ else if 1 < 2 * (q - ⌊q⌋) then ⌊q⌋ + 1 else ⌊q⌋ + ⌊q⌋ % 2

theorem isNearestEven_roundEven (q : ℚ) : IsNearestEven (roundEven q) q := by
  have h0 := Int.floor_le q
  have h1 := Int.lt_floor_add_one q
  unfold roundEven
  split_ifs with hlow hhigh
  · left
    rw [abs_of_nonpos (by linarith)]
    linarith
  · left
    push_cast
    rw [abs_of_nonneg (by linarith)]
    linarith
  · right
    -- In the middle the parity of the floor decides which neighbour is taken.
    rcases Int.emod_two_eq_zero_or_one ⌊q⌋ with heven | hodd
    · rw [heven, add_zero]
      refine ⟨?_, Int.even_iff.mpr heven⟩
      rw [abs_of_nonpos (by linarith)]
      linarith
    · rw [hodd]
      refine ⟨?_, Int.even_add_one.mpr (Int.not_even_iff.mpr hodd)⟩
      push_cast
      rw [abs_of_nonneg (by linarith)]
      linarith

theorem IsNearestEven.eq_roundEven {n : ℤ} {q : ℚ} (h : IsNearestEven n q) : n = roundEven q :=
  h.unique (isNearestEven_roundEven q)

/-- What a quotient of naturals has beyond its floor is a share of the remainder. -/
theorem div_sub_floor_eq (num : ℕ) {den : ℕ} (hden : 0 < den) :
    (num : ℚ) / den - ⌊(num : ℚ) / den⌋ = (num % den : ℕ) / (den : ℚ) := by
  have hd : (den : ℚ) ≠ 0 := by exact_mod_cast hden.ne'
  have hfloor : ((⌊(num : ℚ) / den⌋ : ℤ) : ℚ) = (num / den : ℕ) := by
    rw [Rat.floor_natCast_div_natCast, ← Int.natCast_ediv, Int.cast_natCast]
  rw [hfloor, eq_div_iff hd, sub_mul, div_mul_cancel₀ _ hd, sub_eq_iff_eq_add]
  exact_mod_cast (Nat.mod_add_div' num den).symm

/-- A quotient of naturals is rounded as its value: doubled, the remainder and the fraction stand
    on the same side of the whole. -/
theorem nearestEven_eq_roundEven (num den : ℕ) (hden : 0 < den) :
    (nearestEven num den : ℤ) = roundEven ((num : ℚ) / den) := by
  have hd : (0 : ℚ) < den := by exact_mod_cast hden
  have hlow : 2 * ((num : ℚ) / den - ⌊(num : ℚ) / den⌋) < 1 ↔ 2 * (num % den) < den := by
    rw [div_sub_floor_eq num hden, ← mul_div_assoc, div_lt_one hd]
    exact_mod_cast Iff.rfl
  have hhigh : 1 < 2 * ((num : ℚ) / den - ⌊(num : ℚ) / den⌋) ↔ den < 2 * (num % den) := by
    rw [div_sub_floor_eq num hden, ← mul_div_assoc, one_lt_div hd]
    exact_mod_cast Iff.rfl
  rw [nearestEven, roundEven]
  simp only [hlow, hhigh]
  rw [Rat.floor_natCast_div_natCast]
  split_ifs
  · rfl
  · exact Int.natCast_succ _
  · exact Int.natCast_add _ _

/-- So it is the nearest integer of its value. -/
theorem isNearestEven_nearestEven (num den : ℕ) (hden : 0 < den) :
    IsNearestEven (nearestEven num den) ((num : ℚ) / den) := by
  rw [nearestEven_eq_roundEven num den hden]
  exact isNearestEven_roundEven _

theorem abs_roundEven_sub_le (q : ℚ) : |(roundEven q : ℚ) - q| ≤ 1 / 2 :=
  (isNearestEven_roundEven q).abs_sub_le

/-- No other integer is closer: it is one apart from the nearest one, which is a half away. -/
theorem abs_roundEven_sub_le_abs_sub (n : ℤ) (q : ℚ) : |(roundEven q : ℚ) - q| ≤ |(n : ℚ) - q| := by
  rcases eq_or_ne n (roundEven q) with rfl | hne
  · exact le_rfl
  have hhalf := abs_roundEven_sub_le q
  have hone : (1 : ℚ) ≤ |(n : ℚ) - roundEven q| := by
    exact_mod_cast Int.one_le_abs (sub_ne_zero.mpr hne)
  have htriangle := abs_sub_le (n : ℚ) q (roundEven q)
  rw [abs_sub_comm q] at htriangle
  linarith

theorem roundEven_neg (q : ℚ) : roundEven (-q) = -roundEven q :=
  (isNearestEven_roundEven q).neg.eq_roundEven.symm

/-- An integer close to a number is what the number rounds to. -/
theorem roundEven_eq_of_abs_sub_lt {n : ℤ} {q : ℚ} (h : |q - n| < 1 / 2) : roundEven q = n :=
  (IsNearestEven.eq_roundEven (Or.inl (by rwa [abs_sub_comm]))).symm

theorem roundEven_intCast (n : ℤ) : roundEven n = n :=
  roundEven_eq_of_abs_sub_lt (by rw [sub_self, abs_zero]; norm_num)

/-- Rounding keeps the order. Results in the wrong order would be neighbours that both lie a half
    from the same number. -/
theorem roundEven_mono {p q : ℚ} (h : p ≤ q) : roundEven p ≤ roundEven q := by
  by_contra hlt
  have hp := abs_le.mp (abs_roundEven_sub_le p)
  have hq := abs_le.mp (abs_roundEven_sub_le q)
  -- The results are a whole apart, which is all that two halves allow.
  have hstep : (roundEven q : ℚ) + 1 ≤ roundEven p := by exact_mod_cast (by omega)
  have hpq : p = q := by linarith
  rw [hpq] at hlt
  exact hlt le_rfl

theorem roundEven_le_of_le_intCast {n : ℤ} {q : ℚ} (h : q ≤ n) : roundEven q ≤ n := by
  rw [← roundEven_intCast n]
  exact roundEven_mono h

/-- A quotient of naturals does not grow when it is rounded. -/
theorem nearestEven_le (num : ℕ) {den : ℕ} (hden : 0 < den) : nearestEven num den ≤ num := by
  have hle : roundEven ((num : ℚ) / den) ≤ (num : ℤ) := by
    refine roundEven_le_of_le_intCast ?_
    rw [Int.cast_natCast]
    exact div_le_self num.cast_nonneg (by exact_mod_cast hden)
  rw [← nearestEven_eq_roundEven num den hden] at hle
  exact_mod_cast hle

end Darkroom
