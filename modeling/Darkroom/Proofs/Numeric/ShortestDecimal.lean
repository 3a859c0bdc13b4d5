import Darkroom.Proofs.Numeric.DecimalValue
import Darkroom.Proofs.Numeric.Grid

/-!
# The Fewest Digits

A number is read back from the fewest digits that it is shown with.

Reading a decimal rounds its value, whatever way the value is written: the shortcuts for very many
digits only settle what rounding would settle too. So the search for the fewest digits needs no
analysis of its own up to its last grid. On every grid before, it stops at a point only if the point
reads back. On the last one it does not ask, and there the spacing is so small beside the number
that nothing else could be read.

## Theorems

* `Binary.finite_eq_of_denotes`: A number other than zero is the only one with its value.
* `Binary.round_of_ofDecimal`, `Binary.ofDecimal_eq_finite`: Reading a decimal rounds its value.
* `Binary.round_search`: What the search settles on.
* `Binary.ofDecimal_of_value_eq`: A number is read back from the value of its fewest digits.
-/

namespace Darkroom

namespace Binary

variable {f : BinaryFormat}

/-- A canonical significand stands at the place that belongs to the size of its number. -/
theorem place_of_canonical {m : ℕ} {e : ℤ} (h : f.Canonical m e) (hm : m ≠ 0) :
    f.place (m * 2 ^ e) = e := by
  rcases h with ⟨hlt, hmin, -, hfull⟩
  have hpos : (0 : ℚ) < m := by exact_mod_cast Nat.pos_of_ne_zero hm
  have hprec := f.precision_pos
  have hlog : Int.log 2 (m : ℚ) = Nat.log 2 m := Int.log_natCast 2 m
  have hbelow : Nat.log 2 m < f.precision := Nat.log_lt_of_lt_pow hm hlt
  rw [BinaryFormat.place, abs_of_pos (mul_pos hpos (two_zpow_pos e)), log_mul_two_zpow hpos, hlog,
    f.precision_sub_one]
  rcases hfull with rfl | hfull
  · omega
  · have habove : f.precision - 1 ≤ Nat.log 2 m := Nat.le_log_of_pow_le (by decide) hfull
    omega

theorem sign_eq_of_signed_eq {s t : Bool} {m : ℕ} (hm : m ≠ 0) (h : signed s m = signed t m) :
    s = t := by
  cases s <;> cases t <;> simp [signed] at h ⊢ <;> omega

/-- A number other than zero is the only one with its value. -/
theorem finite_eq_of_denotes {x : Binary f} {s : Bool} {m : ℕ} {e : ℤ} {h : f.Canonical m e}
    (hm : m ≠ 0) (hx : x.Denotes (signed s m * 2 ^ e)) : x = finite s m e h := by
  rcases hx.exists_finite with ⟨t, n, d, hc, rfl, heq⟩
  have hsize : (m : ℚ) * 2 ^ e = n * 2 ^ d := by
    have habs := congrArg abs heq
    rwa [abs_mul, abs_mul, abs_of_pos (two_zpow_pos e), abs_of_pos (two_zpow_pos d),
      ← Int.cast_abs, ← Int.cast_abs, Int.abs_eq_natAbs, Int.abs_eq_natAbs, natAbs_signed,
      natAbs_signed, Int.cast_natCast, Int.cast_natCast] at habs
  have hn : n ≠ 0 := by
    rintro rfl
    rw [Nat.cast_zero, zero_mul] at hsize
    exact (mul_pos (by exact_mod_cast Nat.pos_of_ne_zero hm) (two_zpow_pos e)).ne' hsize
  -- Numbers of one size have their significands at one place.
  have hplace : e = d := by
    rw [← place_of_canonical h hm, hsize, place_of_canonical hc hn]
  subst hplace
  have hsigned : signed s m = signed t n := by
    exact_mod_cast mul_right_cancel₀ (two_zpow_pos e).ne' heq
  have hmn : m = n := by
    have := congrArg Int.natAbs hsigned
    rwa [natAbs_signed, natAbs_signed] at this
  subst hmn
  rw [sign_eq_of_signed_eq hm hsigned]

/-- The ratio that a decimal is read as has its value, and its sign. -/
theorem ratio_of_decimal (s : Bool) (d : Decimal) :
    (if s then -d.value else d.value) = (signed s (scaleByTen d.significand 1 d.exponent).1 : ℚ) /
      (scaleByTen d.significand 1 d.exponent).2 * 2 ^ (0 : ℤ) := by
  have hratio := scaleByTen_eq d.significand 1 d.exponent
  rw [Nat.cast_one, div_one] at hratio
  rw [zpow_zero, mul_one, Decimal.value, ← hratio]
  cases s <;> simp [signed, neg_div]

/-- What a decimal rounds to, when it is read as a number that is finite and not zero. -/
theorem round_of_ofDecimal {d : Decimal} {m : ℕ} {e : ℤ} {h : f.Canonical m e} (hm : m ≠ 0)
    (hread : (ofDecimal false d : Binary f) = finite false m e h) :
    f.round d.value = m * 2 ^ e := by
  unfold ofDecimal at hread
  dsimp only at hread
  split_ifs at hread
  · cases hread
    exact absurd rfl hm
  · cases hread
    exact absurd rfl hm
  · have hdenotes := ofRatio_denotes_of_isFinite (f := f)
      (scaleByTen_pos d.significand Nat.one_pos _) (ratio_of_decimal false d) (by rw [hread]; rfl)
    rw [hread] at hdenotes
    exact hdenotes.unique (denotes_finite false m e h)

/-- Above a power of two that the format does not reach, nothing rounds to a number of it. -/
theorem not_two_zpow_le_of_round {q : ℚ} {m : ℕ} {e : ℤ} (h : f.Canonical m e)
    (hround : f.round q = m * 2 ^ e) : ¬(2 : ℚ) ^ (f.maxExponent + f.precision) ≤ q := by
  intro hle
  have hprec := f.precision_pos
  have hmin := f.minExponent_le
  have hreached := BinaryFormat.le_round_of_le (f := f)
    (BinaryFormat.representable_two_zpow (by omega)) hle
  have hm : (m : ℚ) < 2 ^ (f.precision : ℤ) := by exact_mod_cast h.1
  have hlt : (m : ℚ) * 2 ^ e < 2 ^ (f.maxExponent + f.precision) :=
    calc (m : ℚ) * 2 ^ e < 2 ^ (f.precision : ℤ) * 2 ^ e :=
          mul_lt_mul_of_pos_right hm (two_zpow_pos e)
      _ = 2 ^ (f.precision + e) := (zpow_add₀ (by norm_num) _ _).symm
      _ ≤ 2 ^ (f.maxExponent + f.precision) := two_zpow_le (by linarith [h.2.2.1])
  exact absurd (hround ▸ hreached) (not_le.mpr hlt)

/-- Half of the least place or less rounds to no number above zero. -/
theorem two_zpow_le_of_round_pos {q : ℚ} (h : 0 < f.round q) : 2 ^ f.minExponent ≤ 2 * q := by
  have hleast := (BinaryFormat.representable_round q).two_zpow_le h
  have hnear := (abs_le.mp (BinaryFormat.abs_round_sub_le_abs_sub (q := q) (f := f)
    BinaryFormat.representable_zero)).2
  rw [zero_sub, abs_neg] at hnear
  rcases abs_cases q with habs | habs <;> linarith

/-- A decimal is read as the number other than zero that its value rounds to, with the sign that
    stands before it. Such a value is neither so large nor so small that the count of digits settles
    it. -/
theorem ofDecimal_eq_finite {s : Bool} {d : Decimal} {m : ℕ} {e : ℤ} (h : binary64.Canonical m e)
    (hm : m ≠ 0) (hround : binary64.round d.value = m * 2 ^ e) :
    (ofDecimal s d : Double) = finite s m e h := by
  have hpos : 0 < binary64.round d.value :=
    hround ▸ mul_pos (by exact_mod_cast Nat.pos_of_ne_zero hm) (two_zpow_pos e)
  have hhalf := two_zpow_le_of_round_pos hpos
  have hzero : d.significand ≠ 0 :=
    Decimal.value_pos_iff.mp (by linarith [two_zpow_pos binary64.minExponent])
  rcases Decimal.value_bounds hzero with ⟨hlow, hhigh⟩
  -- The two shortcuts are for values that round to no such number.
  have hlarge : ¬binary64.maxExponent + binary64.precision < d.digitCount + d.exponent := by
    intro hlarge
    refine not_two_zpow_le_of_round h hround ?_
    calc (2 : ℚ) ^ (binary64.maxExponent + binary64.precision)
        ≤ 10 ^ (binary64.maxExponent + binary64.precision) := two_zpow_le_ten_zpow (by decide)
      _ ≤ 10 ^ (d.digitCount + d.exponent - 1) := ten_zpow_le (by omega)
      _ ≤ d.value := hlow
  have hsmall : ¬d.digitCount + d.exponent < binary64.minExponent - 1 := by
    intro hsmall
    have hlt : d.value < 2 ^ (binary64.minExponent - 1) :=
      calc d.value < 10 ^ (d.digitCount + d.exponent) := hhigh
        _ ≤ 10 ^ (binary64.minExponent - 1) := ten_zpow_le hsmall.le
        _ ≤ 2 ^ (binary64.minExponent - 1) := ten_zpow_le_two_zpow_of_nonpos (by decide)
    rw [zpow_sub_one₀ (by norm_num)] at hlt
    linarith
  unfold ofDecimal
  dsimp only
  rw [if_neg hzero, if_neg hlarge, if_neg hsmall]
  refine finite_eq_of_denotes hm ?_
  have hsigned : binary64.round (if s then -d.value else d.value) = signed s m * 2 ^ e := by
    cases s with
    | false => exact hround
    | true =>
      rw [if_pos rfl, BinaryFormat.round_neg, hround, signed, if_pos rfl, Int.cast_neg,
        Int.cast_natCast, neg_mul]
  rw [← hsigned]
  refine ofRatio_denotes (scaleByTen_pos d.significand Nat.one_pos _) (ratio_of_decimal s d) ?_
  rw [hsigned]
  exact (denotes_finite s m e h).abs_le_greatest

/-- The magnitude of a number, as the search works with it. -/
theorem magnitude_eq (s : Bool) (m : ℕ) (e : ℤ) (h : f.Canonical m e) :
    0 < (magnitude (finite s m e h)).2 ∧
      ((magnitude (finite s m e h)).1 : ℚ) / (magnitude (finite s m e h)).2 = m * 2 ^ e := by
  unfold magnitude
  dsimp only
  split_ifs with he
  · refine ⟨Nat.one_pos, ?_⟩
    rw [Nat.cast_one, div_one, Nat.cast_mul, two_zpow_eq_twoTo he]
  · refine ⟨twoTo_pos _, ?_⟩
    rw [two_zpow_eq_inv_twoTo (by omega), div_eq_mul_inv]

/-- On a grid of seventeen digits, the point nearest to a number is so close that it rounds to it:
    the spacing is less than a part in `2 ^ 53`. -/
theorem round_nearest_of_seventeen {num den : ℕ} {top : ℤ} {q : ℚ}
    (hq : binary64.Representable q) (hq0 : 0 < q) (hden : 0 < den) (hratio : (num : ℚ) / den = q)
    (htop : (10 : ℚ) ^ (top - 1) ≤ q) :
    binary64.round (Decimal.value ⟨nearestEven (scaleByTen num den (17 - top)).1
      (scaleByTen num den (17 - top)).2, -(17 - top)⟩) = q := by
  have hnear := (isNearestEven_nearestEven (scaleByTen num den (17 - top)).1
    (scaleByTen num den (17 - top)).2 (scaleByTen_pos num hden _)).abs_sub_le
  rw [scaleByTen_eq, hratio] at hnear
  generalize nearestEven (scaleByTen num den (17 - top)).1 (scaleByTen num den (17 - top)).2 = n
    at hnear ⊢
  refine BinaryFormat.round_eq_of_close hq hq0 ?_
  have hten := ten_zpow_pos (-(17 - top))
  have hscaled : Decimal.value ⟨n, -(17 - top)⟩ - q =
      (n - q * 10 ^ (17 - top)) * 10 ^ (-(17 - top)) := by
    rw [sub_mul, mul_assoc, ← zpow_add₀ (by norm_num), add_neg_cancel, zpow_zero, mul_one]
    rfl
  have hspacing : (10 : ℚ) ^ (-(17 - top)) = 10 ^ (top - 1) * 10 ^ (-16 : ℤ) := by
    rw [← zpow_add₀ (by norm_num)]
    congr 1
    omega
  calc 2 * |Decimal.value ⟨n, -(17 - top)⟩ - q|
      = 2 * |(n : ℚ) - q * 10 ^ (17 - top)| * 10 ^ (-(17 - top)) := by
        rw [hscaled, abs_mul, abs_of_pos hten, mul_assoc]
    _ ≤ 10 ^ (-(17 - top)) := mul_le_of_le_one_left hten.le (by push_cast at hnear; linarith)
    _ = 10 ^ (top - 1) * 10 ^ (-16 : ℤ) := hspacing
    _ ≤ q * 10 ^ (-16 : ℤ) := mul_le_mul_of_nonneg_right htop (ten_zpow_pos _).le
    _ < q * 2 ^ (-binary64.precision : ℤ) := mul_lt_mul_of_pos_left (by norm_num [binary64]) hq0

/-- On each grid the search looks at two points before it goes on. -/
theorem exists_search_succ (x : Binary f) (num den : ℕ) (top : ℤ) (count fuel : ℕ) :
    ∃ near far, shortest.search x num den top count (fuel + 1) =
      if shortest.readsBack x near then near
      else if shortest.readsBack x far then far
      else shortest.search x num den top (count + 1) fuel := ⟨_, _, rfl⟩

/-- Whatever the search settles on rounds to the number: on the coarser grids it is asked for, and
    the last grid is fine enough. -/
theorem round_search {s : Bool} {m : ℕ} {e : ℤ} {h : binary64.Canonical m e} (hm : m ≠ 0)
    {num den : ℕ} {top : ℤ} (hden : 0 < den) (hratio : (num : ℚ) / den = m * 2 ^ e)
    (htop : (10 : ℚ) ^ (top - 1) ≤ m * 2 ^ e) {count fuel : ℕ} (hcount : count + fuel = 17) :
    binary64.round (shortest.search (finite s m e h) num den top count fuel).value =
      m * 2 ^ e := by
  have hreads (d : Decimal) (hd : shortest.readsBack (finite s m e h) d = true) :
      binary64.round d.value = m * 2 ^ e := round_of_ofDecimal hm (of_decide_eq_true hd)
  -- By induction on the grids that are left, down to the one with seventeen digits.
  induction fuel generalizing count with
  | zero =>
    have hpos : (0 : ℚ) < m * 2 ^ e :=
      mul_pos (by exact_mod_cast Nat.pos_of_ne_zero hm) (two_zpow_pos e)
    obtain rfl : count = 17 := hcount
    exact round_nearest_of_seventeen (denotes_finite false m e h).representable hpos hden hratio
      htop
  | succ fuel ih =>
    rcases exists_search_succ (finite s m e h) num den top count fuel with ⟨near, far, hsearch⟩
    rw [hsearch]
    split_ifs with hnear hfar
    · exact hreads near hnear
    · exact hreads far hfar
    · exact ih (by omega)

/-- The leading bit of a ratio that is a number of the format. -/
theorem floorLog2_of_canonical {num den m : ℕ} {e : ℤ} (h : f.Canonical m e) (hm : m ≠ 0)
    (hnum : 0 < num) (hden : 0 < den) (hratio : (num : ℚ) / den = m * 2 ^ e) :
    f.minExponent ≤ floorLog2 num den ∧ floorLog2 num den < f.maxExponent + f.precision := by
  rcases h with ⟨hlt, hmin, hmax, -⟩
  have hpos : (0 : ℚ) < m := by exact_mod_cast Nat.pos_of_ne_zero hm
  have hlog : Int.log 2 (m : ℚ) = Nat.log 2 m := Int.log_natCast 2 m
  have hbelow : Nat.log 2 m < f.precision := Nat.log_lt_of_lt_pow hm hlt
  rw [floorLog2_eq num den hnum hden, hratio, log_mul_two_zpow hpos, hlog]
  omega

/-- The fewest digits of a number round to it. -/
theorem round_shortest {s : Bool} {m : ℕ} {e : ℤ} {h : binary64.Canonical m e} (hm : m ≠ 0) :
    binary64.round (shortest (finite s m e h)).value = m * 2 ^ e := by
  rcases magnitude_eq s m e h with ⟨hden, hratio⟩
  have hpos : (0 : ℚ) < m * 2 ^ e :=
    mul_pos (by exact_mod_cast Nat.pos_of_ne_zero hm) (two_zpow_pos e)
  have hnum : (magnitude (finite s m e h)).1 ≠ 0 := by
    intro hzero
    rw [hzero, Nat.cast_zero, zero_div] at hratio
    exact hpos.ne hratio
  have hlog := floorLog2_of_canonical h hm (Nat.pos_of_ne_zero hnum) hden hratio
  unfold shortest
  dsimp only
  rw [if_neg hnum, Decimal.value_stripZeros]
  refine round_search hm hden hratio ?_ rfl
  rw [← hratio]
  exact ten_zpow_decade_le (Nat.pos_of_ne_zero hnum) hden (hlog.1.trans' (by decide))
    (hlog.2.le.trans (by decide))

/-- A number is read back from every decimal with the value of its fewest digits, with its sign. -/
theorem ofDecimal_of_value_eq {s : Bool} {m : ℕ} {e : ℤ} {h : binary64.Canonical m e} {d : Decimal}
    (hd : d.value = (shortest (finite s m e h)).value) :
    (ofDecimal s d : Double) = finite s m e h := by
  rcases eq_or_ne m 0 with rfl | hm
  · -- Zero has no digits to speak of, and only one form for each sign.
    obtain rfl : e = binary64.minExponent :=
      h.2.2.2.resolve_right (not_le.mpr (twoTo_pos _))
    have hzero : d.value = 0 := by
      rw [hd, show shortest (finite s 0 binary64.minExponent h) = ⟨0, 0⟩ from rfl, Decimal.value,
        Nat.cast_zero, zero_mul]
    have hsignificand : d.significand = 0 := by
      by_contra hne
      exact (Decimal.value_pos_iff.mpr hne).ne' hzero
    unfold ofDecimal
    dsimp only
    rw [if_pos hsignificand]
    rfl
  · exact ofDecimal_eq_finite h hm (hd ▸ round_shortest hm)

end Binary
end Darkroom
