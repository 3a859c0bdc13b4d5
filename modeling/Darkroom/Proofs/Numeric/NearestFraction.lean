import Darkroom.Numeric.Fraction
import Mathlib.Data.Nat.GCD.Basic
import Mathlib.Data.Rat.Lemmas
import Mathlib.RingTheory.Int.Basic
import Mathlib.Order.Interval.Set.UnorderedInterval
import Mathlib.Tactic.FieldSimp
import Mathlib.Tactic.Linarith
import Mathlib.Tactic.LinearCombination
import Mathlib.Tactic.NormNum
import Mathlib.Tactic.Positivity
import Mathlib.Tactic.Ring

/-!
# The Nearest Fraction

No fraction within a bound on denominators is nearer to a number than the one that is found.

Two fractions that differ are a certain distance apart, because over the common denominator their
numerators differ by one at least. Fractions that are no farther apart than this are neighbours, and
between neighbours there is no room for small denominators: a fraction there would have to keep its
distance from both. So of all fractions within a bound, one of two neighbours is nearest to a number
between them, as soon as their denominators together are beyond the bound.

Two convergents are neighbours all along, for each digit of the continued fraction only turns the
difference of their cross products around. The number itself stays put together of the two, with
what is left of it as weights, and hence between them. The search ends at the first digit that is
too large for the bound; a smaller one, the greatest that the bound admits, gives the other
neighbour.

## Main definitions

* `Neighbours`: Fractions that are no farther apart than they have to be.
* `Convergents.LeadsTo`: What two convergents have to do with a number, and what is left of it.

## Theorems

* `one_div_le_abs_sub`: How far fractions are apart.
* `Neighbours.nearest`: One of two neighbours is nearest.
* `Convergents.LeadsTo.next`, `Convergents.LeadsTo.exists_within`: One more digit, and all of them.
* `den_nearestFraction_le`, `abs_nearestFraction_sub_le`: The fraction found is within the bound,
  and none is nearer.
* `nearestFraction_eq`: A fraction that is very close is the one found.
-/

namespace Darkroom

/-! Fractions apart. -/

/-- Two fractions that differ are at least as far apart as one part of the product of their
    denominators. -/
theorem one_div_le_abs_sub {x y : ℚ} (h : x ≠ y) : 1 / ((x.den : ℚ) * y.den) ≤ |x - y| := by
  have hx : (0 : ℚ) < x.den := by exact_mod_cast x.den_pos
  have hy : (0 : ℚ) < y.den := by exact_mod_cast y.den_pos
  have hcross : x - y = ((x.num * y.den - y.num * x.den : ℤ) : ℚ) / (x.den * y.den) := by
    push_cast
    conv_lhs => rw [← Rat.num_div_den x, ← Rat.num_div_den y]
    field_simp
  have hne : x.num * y.den - y.num * x.den ≠ 0 := by
    intro hzero
    rw [hzero, Int.cast_zero, zero_div, sub_eq_zero] at hcross
    exact h hcross
  rw [hcross, abs_div, abs_of_pos (mul_pos hx hy)]
  refine div_le_div_of_nonneg_right ?_ (mul_pos hx hy).le
  exact_mod_cast Int.one_le_abs hne

/-- Two fractions are neighbours when they are no farther apart than they have to be. -/
def Neighbours (a b : ℚ) : Prop := |a - b| = 1 / ((a.den : ℚ) * b.den)

namespace Neighbours

variable {a b x y : ℚ}

theorem symm (h : Neighbours a b) : Neighbours b a := by
  rw [Neighbours, abs_sub_comm, mul_comm]
  exact h

/-- Between neighbours, the denominators are large: a fraction there has a distance to either of
    them, and the two distances do not fit otherwise. -/
theorem den_add_den_le (h : Neighbours a b) (ha : a < y) (hb : y < b) : a.den + b.den ≤ y.den := by
  have hda : (0 : ℚ) < a.den := by exact_mod_cast a.den_pos
  have hdb : (0 : ℚ) < b.den := by exact_mod_cast b.den_pos
  have hdy : (0 : ℚ) < y.den := by exact_mod_cast y.den_pos
  have hlow := one_div_le_abs_sub ha.ne'
  have hhigh := one_div_le_abs_sub hb.ne'
  rw [abs_of_pos (sub_pos.mpr ha)] at hlow
  rw [abs_of_pos (sub_pos.mpr hb)] at hhigh
  rw [Neighbours, abs_sub_comm, abs_of_pos (sub_pos.mpr (ha.trans hb))] at h
  have hsum : 1 / ((y.den : ℚ) * a.den) + 1 / (b.den * y.den) ≤ 1 / (a.den * b.den) := by linarith
  -- Over the common denominator, the numerators are the sum on one side and `y.den` on the other.
  rw [div_add_div _ _ (by positivity) (by positivity),
    div_le_div_iff₀ (by positivity) (by positivity)] at hsum
  have hscaled : ((a.den : ℚ) + b.den) * (y.den * a.den * b.den) ≤
      y.den * (y.den * a.den * b.den) := by linarith
  exact_mod_cast le_of_mul_le_mul_right hscaled (by positivity)

/-- A number between neighbours has one of them nearest, among all fractions of smaller denominators
    than the neighbours have together. -/
theorem nearest (h : Neighbours a b) (hx : x ∈ Set.uIcc a b) (hy : y.den < a.den + b.den) :
    |a - x| ≤ |y - x| ∨ |b - x| ≤ |y - x| := by
  wlog hab : a ≤ b generalizing a b with H
  · rw [Set.uIcc_comm] at hx
    rw [add_comm] at hy
    exact (H h.symm hx hy (le_of_not_ge hab)).symm
  rw [Set.uIcc_of_le hab] at hx
  rcases le_or_gt y a with hya | hya
  · left
    rw [abs_of_nonpos (by linarith [hx.1]), abs_of_nonpos (by linarith [hx.1])]
    linarith
  · rcases le_or_gt b y with hby | hby
    · right
      rw [abs_of_nonneg (by linarith [hx.2]), abs_of_nonneg (by linarith [hx.2])]
      linarith
    · exact absurd (h.den_add_den_le hya hby) (not_le.mpr hy)

end Neighbours

/-! Fractions of naturals. -/

section Naturals

variable {p q r s : ℕ}

/-- A fraction is reduced when its cross products with another one differ by one. -/
theorem den_mkRat_of_determinant (hq : 0 < q) (h : |(p * s - r * q : ℤ)| = 1) :
    (mkRat p q).den = q := by
  -- A common divisor of `p` and `q` divides the determinant.
  have hcoprime : IsCoprime (p : ℤ) q := by
    rcases (abs_eq zero_le_one).mp h with h | h
    · exact ⟨s, -r, by linear_combination h⟩
    · exact ⟨-s, r, by linear_combination -h⟩
  rw [Rat.mkRat_eq_div]
  exact_mod_cast Rat.den_div_eq_of_coprime (a := p) (b := q) (by exact_mod_cast hq)
    (Int.isCoprime_iff_nat_coprime.mp hcoprime)

/-- Fractions whose cross products differ by one are neighbours. -/
theorem neighbours_of_determinant (hq : 0 < q) (hs : 0 < s) (h : |(p * s - r * q : ℤ)| = 1) :
    Neighbours (mkRat p q) (mkRat r s) := by
  have hswap : |(r * q - p * s : ℤ)| = 1 := by rwa [abs_sub_comm]
  have hq' : (0 : ℚ) < q := by exact_mod_cast hq
  have hs' : (0 : ℚ) < s := by exact_mod_cast hs
  rw [Neighbours, den_mkRat_of_determinant hq h, den_mkRat_of_determinant hs hswap,
    Rat.mkRat_eq_div, Rat.mkRat_eq_div, Int.cast_natCast, Int.cast_natCast,
    div_sub_div _ _ hq'.ne' hs'.ne', abs_div, abs_of_pos (mul_pos hq' hs'),
    mul_comm (q : ℚ) (r : ℚ)]
  congr 1
  exact_mod_cast h

/-- What is put together of the parts of two fractions lies between them. -/
theorem weighted_mem_uIcc (hq : 0 < q) (hs : 0 < s) {u w : ℕ} (hw : 0 < w) :
    ((p * u + r * w : ℕ) : ℚ) / (q * u + s * w : ℕ) ∈ Set.uIcc (mkRat p q) (mkRat r s) := by
  have hq' : (0 : ℚ) < q := by exact_mod_cast hq
  have hs' : (0 : ℚ) < s := by exact_mod_cast hs
  have hsum : (0 : ℚ) < (q * u + s * w : ℕ) := by exact_mod_cast by positivity
  have hu' : (0 : ℚ) ≤ u := u.cast_nonneg
  have hw' : (0 : ℚ) ≤ w := w.cast_nonneg
  rw [Rat.mkRat_eq_div, Rat.mkRat_eq_div, Int.cast_natCast, Int.cast_natCast, Set.mem_uIcc]
  rcases le_total ((p : ℚ) / q) (r / s) with hle | hle
  · left
    rw [div_le_div_iff₀ hq' hs'] at hle
    rw [div_le_div_iff₀ hq' hsum, div_le_div_iff₀ hsum hs']
    push_cast
    exact ⟨by linarith [mul_le_mul_of_nonneg_right hle hw'],
      by linarith [mul_le_mul_of_nonneg_right hle hu']⟩
  · right
    rw [div_le_div_iff₀ hs' hq'] at hle
    rw [div_le_div_iff₀ hs' hsum, div_le_div_iff₀ hsum hq']
    push_cast
    exact ⟨by linarith [mul_le_mul_of_nonneg_right hle hu'],
      by linarith [mul_le_mul_of_nonneg_right hle hw']⟩

end Naturals

namespace Convergents

variable {bound n d num den : ℕ} {c : Convergents}

/-- Two convergents within a bound, and what they have to do with a number `n / d` of which
    `num / den` is left: the number is put together of the two. -/
structure LeadsTo (bound n d num den : ℕ) (c : Convergents) : Prop where
  determinant : |(c.p₁ * c.q₀ - c.p₀ * c.q₁ : ℤ)| = 1
  numerator : c.p₁ * num + c.p₀ * den = n
  denominator : c.q₁ * num + c.q₀ * den = d
  former_le : c.q₀ ≤ bound
  later_le : c.q₁ ≤ bound

theorem leadsTo_start (h : 0 < bound) : start.LeadsTo bound n d n d where
  determinant := by simp [start]
  numerator := by simp [start]
  denominator := by simp [start]
  former_le := h
  later_le := Nat.zero_le bound

/-- One more digit keeps all of this, and turns the difference of the cross products around. -/
theorem LeadsTo.next (h : c.LeadsTo bound n d num den) (hfit : (c.next (num / den)).q₁ ≤ bound) :
    (c.next (num / den)).LeadsTo bound n d den (num % den) where
  determinant := by
    rw [← h.determinant, ← abs_neg]
    simp only [Convergents.next]
    congr 1
    push_cast
    ring
  numerator := by
    have hdigit := Nat.div_add_mod num den
    rw [← h.numerator]
    conv_rhs => rw [← hdigit]
    simp only [Convergents.next]
    ring
  denominator := by
    have hdigit := Nat.div_add_mod num den
    rw [← h.denominator]
    conv_rhs => rw [← hdigit]
    simp only [Convergents.next]
    ring
  former_le := h.later_le
  later_le := hfit

/-- The last pair within a bound is left at a digit that goes beyond it, when the number itself is
    beyond it. -/
theorem LeadsTo.exists_within (h : c.LeadsTo bound n d num den) (hnd : n.Coprime d)
    (hd : bound < d) : ∃ num' den', (c.within bound num den).LeadsTo bound n d num' den' ∧
      bound < ((c.within bound num den).next (num' / den')).q₁ := by
  fun_induction within bound num den c with
  | case1 num c =>
    -- All of the number has been used up, so it is the later fraction itself.
    have hn : c.p₁ * num = n := h.numerator
    have hd' : c.q₁ * num = d := h.denominator
    have hone : num = 1 :=
      Nat.eq_one_of_dvd_coprimes hnd (Dvd.intro_left _ hn) (Dvd.intro_left _ hd')
    rw [hone, Nat.mul_one] at hd'
    exact absurd h.later_le (not_le.mpr (hd' ▸ hd))
  | case2 num den c hden hlt c' hbeyond => exact ⟨num, den, h, hbeyond⟩
  | case3 num den c hden hlt c' hfit ih => exact ih (h.next (not_lt.mp hfit))

/-- Where a digit goes beyond the bound, something is left of the number, and the later denominator
    is not zero. -/
theorem LeadsTo.pos_of_beyond (h : c.LeadsTo bound n d num den)
    (hbeyond : bound < (c.next (num / den)).q₁) : 0 < den ∧ 0 < c.q₁ := by
  have hformer := h.former_le
  simp only [Convergents.next] at hbeyond
  constructor
  · rw [Nat.pos_iff_ne_zero]
    rintro rfl
    rw [Nat.div_zero, Nat.zero_mul] at hbeyond
    omega
  · rw [Nat.pos_iff_ne_zero]
    intro hzero
    rw [hzero, Nat.mul_zero] at hbeyond
    omega

/-- The fraction between a pair is the later one after a smaller digit. -/
theorem between_eq : c.between bound = (c.next ((bound - c.q₀) / c.q₁)).later := by
  unfold between later Convergents.next
  push_cast
  rfl

variable {k : ℕ}

theorem LeadsTo.determinant_next (h : c.LeadsTo bound n d num den) :
    |(c.p₁ * (c.next k).q₁ - (c.next k).p₁ * c.q₁ : ℤ)| = 1 := by
  rw [← h.determinant]
  simp only [Convergents.next]
  congr 1
  push_cast
  ring

/-- A digit that is not too large leaves the number between the pair. -/
theorem LeadsTo.mem_uIcc_next (h : c.LeadsTo bound n d num den) (hden : 0 < den)
    (hk : k ≤ num / den) (hq : 0 < c.q₁) (hq' : 0 < (c.next k).q₁) :
    (n / d : ℚ) ∈ Set.uIcc c.later (c.next k).later := by
  have hle : k * den ≤ num := (Nat.mul_le_mul_right den hk).trans (Nat.div_mul_le_self num den)
  rcases Nat.exists_eq_add_of_le hle with ⟨rest, hrest⟩
  have hn : c.p₁ * rest + (c.next k).p₁ * den = n := by
    rw [← h.numerator, hrest]
    simp only [Convergents.next]
    ring
  have hd : c.q₁ * rest + (c.next k).q₁ * den = d := by
    rw [← h.denominator, hrest]
    simp only [Convergents.next]
    ring
  rw [← hn, ← hd]
  exact weighted_mem_uIcc hq hq' hden

/-- The fractions that are left to choose from: neighbours within the bound that have the number
    between them, and no fraction within the bound. -/
theorem LeadsTo.bracket (h : c.LeadsTo bound n d num den)
    (hbeyond : bound < (c.next (num / den)).q₁) :
    Neighbours c.later (c.between bound) ∧ (n / d : ℚ) ∈ Set.uIcc c.later (c.between bound) ∧
      c.later.den ≤ bound ∧ (c.between bound).den ≤ bound ∧
      bound < c.later.den + (c.between bound).den := by
  rcases h.pos_of_beyond hbeyond with ⟨hden, hq⟩
  have hformer := h.former_le
  have hlater := h.later_le
  rw [between_eq]
  -- The factor is the greatest that the bound admits, so it is not as large as the digit.
  have hfactor : (bound - c.q₀) / c.q₁ < num / den := by
    rw [Nat.div_lt_iff_lt_mul hq]
    simp only [Convergents.next] at hbeyond
    omega
  have hfits := Nat.div_mul_le_self (bound - c.q₀) c.q₁
  have hmost := Nat.lt_div_mul_add (a := bound - c.q₀) hq
  generalize (bound - c.q₀) / c.q₁ = k at hfactor hfits hmost
  have hnext : (c.next k).q₁ = c.q₀ + k * c.q₁ := rfl
  have hq' : 0 < (c.next k).q₁ := by omega
  have hdet := h.determinant_next (k := k)
  have hden₁ : c.later.den = c.q₁ := den_mkRat_of_determinant hq hdet
  have hden₂ : (c.next k).later.den = (c.next k).q₁ :=
    den_mkRat_of_determinant hq' (by rwa [abs_sub_comm])
  refine ⟨neighbours_of_determinant hq hq' hdet,
    h.mem_uIcc_next hden hfactor.le hq hq', ?_, ?_, ?_⟩
  · rwa [hden₁]
  · rw [hden₂, hnext]
    omega
  · rw [hden₁, hden₂, hnext]
    omega

end Convergents

theorem distance_eq (a b : ℚ) : distance a b = |a - b| := by
  unfold distance
  split_ifs with h
  · rw [abs_sub_comm, abs_of_nonneg (sub_nonneg.mpr h)]
  · rw [abs_of_pos (sub_pos.mpr (not_le.mp h))]

section

variable {bound : ℕ} {x y : ℚ}

/-- Beyond the bound, the nearer one is taken of two neighbours around the number. -/
theorem exists_neighbours (hbound : 0 < bound) (hx : 0 ≤ x) (hbeyond : bound < x.den) :
    ∃ a b, Neighbours a b ∧ x ∈ Set.uIcc a b ∧ a.den ≤ bound ∧ b.den ≤ bound ∧
      bound < a.den + b.den ∧ nearestFraction bound x = if |a - x| ≤ |b - x| then a else b := by
  have hstart := Convergents.leadsTo_start (n := x.num.toNat) (d := x.den) hbound
  have hnum : (x.num.toNat : ℤ) = x.num := Int.toNat_of_nonneg (Rat.num_nonneg.mpr hx)
  have hreduced : x.num.toNat.Coprime x.den := by
    have hcoprime := x.reduced
    rwa [← hnum, Int.natAbs_natCast] at hcoprime
  rcases hstart.exists_within hreduced hbeyond with ⟨num, den, h, hlast⟩
  have hvalue : ((x.num.toNat : ℕ) : ℚ) / x.den = x := by
    rw [← Int.cast_natCast, hnum, Rat.num_div_den]
  rcases h.bracket hlast with ⟨hneighbours, hmem, ha, hb, hsum⟩
  rw [hvalue] at hmem
  refine ⟨_, _, hneighbours, hmem, ha, hb, hsum, ?_⟩
  rw [nearestFraction, if_neg (not_le.mpr hbeyond)]
  simp only [distance_eq]

/-- The nearest fraction is within the bound. -/
theorem den_nearestFraction_le (hbound : 0 < bound) (hx : 0 ≤ x) :
    (nearestFraction bound x).den ≤ bound := by
  rcases le_or_gt x.den bound with hwithin | hbeyond
  · rwa [nearestFraction, if_pos hwithin]
  · rcases exists_neighbours hbound hx hbeyond with ⟨a, b, -, -, ha, hb, -, heq⟩
    rw [heq]
    split_ifs
    · exact ha
    · exact hb

/-- No fraction within the bound is nearer. -/
theorem abs_nearestFraction_sub_le (hbound : 0 < bound) (hx : 0 ≤ x) (hy : y.den ≤ bound) :
    |nearestFraction bound x - x| ≤ |y - x| := by
  rcases le_or_gt x.den bound with hwithin | hbeyond
  · rw [nearestFraction, if_pos hwithin, sub_self, abs_zero]
    exact abs_nonneg _
  · rcases exists_neighbours hbound hx hbeyond with ⟨a, b, h, hmem, -, -, hsum, heq⟩
    have hnearest := h.nearest hmem (hy.trans_lt hsum)
    rw [heq]
    split_ifs with hle
    · exact hnearest.elim id hle.trans
    · exact hnearest.elim (not_le.mp hle).le.trans id

theorem nearestFraction_nonneg (hbound : 0 < bound) (hx : 0 ≤ x) : 0 ≤ nearestFraction bound x := by
  by_contra hneg
  -- Zero would be nearer.
  have hzero := abs_nearestFraction_sub_le (y := 0) hbound hx hbound
  rw [zero_sub, abs_neg, abs_of_nonneg hx, abs_of_neg (by linarith)] at hzero
  linarith

/-- A fraction within the bound that is very close is the nearest one: two of them could not both be
    so close. -/
theorem nearestFraction_eq (hbound : 0 < bound) (hx : 0 ≤ x) (hy : y.den ≤ bound)
    (hclose : 2 * |y - x| < 1 / (bound : ℚ) ^ 2) : nearestFraction bound x = y := by
  by_contra hne
  have hden := den_nearestFraction_le hbound hx
  have hnearest := abs_nearestFraction_sub_le hbound hx hy
  have hapart := one_div_le_abs_sub hne
  have htriangle := abs_sub_le (nearestFraction bound x) x y
  rw [abs_sub_comm x y] at htriangle
  have hproduct : ((nearestFraction bound x).den : ℚ) * y.den ≤ (bound : ℚ) ^ 2 := by
    rw [sq]
    exact mul_le_mul (by exact_mod_cast hden) (by exact_mod_cast hy) (Nat.cast_nonneg _)
      (Nat.cast_nonneg _)
  have hpos : (0 : ℚ) < (nearestFraction bound x).den * y.den := by
    exact_mod_cast Nat.mul_pos (nearestFraction bound x).den_pos y.den_pos
  have hfar := one_div_le_one_div_of_le hpos hproduct
  linarith

end

end Darkroom
