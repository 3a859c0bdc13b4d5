import Darkroom.Proofs.Numeric.Rounding

/-!
# Values of Binary Numbers

What a finite number is worth, and that a quotient of naturals becomes the number that it rounds to.

A number is described by `Denotes`: it is finite and has a value. All that follows argues about
values, so signs, significands and exponents are opened in this layer only. The two zeros denote the
same value, and nothing above tells them apart.

A result has to fit below the greatest number of the format; otherwise an infinity stands for it.
The condition is on the rounded result and not on the exact one, because numbers slightly above the
greatest one still round to it.

## Main definitions

* `BinaryFormat.greatest`: The greatest number of a format.
* `Binary.Denotes`: A number is finite and has a value.

## Theorems

* `floorLog2_eq`: The exponent of the leading bit of a quotient of naturals.
* `nearestShifted_eq`: A quotient moved by a power of two is rounded to the nearest natural.
* `Denotes.representable`: A value is a number of the format.
* `canonical_of_le_greatest`: What is not greater than the greatest number has a canonical form.
* `ofRatio_denotes`: A quotient of naturals becomes the number that it rounds to.
* `ofRatio_denotes_of_isFinite`: So it does whenever the result is finite.
* `ofRatio_denotes_of_representable`: A number of the format is made without loss.
-/

namespace Darkroom

/-- A power of two with an exponent that is not negative, as the definitions compute it. -/
theorem two_zpow_eq_twoTo {e : ℤ} (h : 0 ≤ e) : (2 : ℚ) ^ e = (twoTo e.toNat : ℚ) := by
  rw [show twoTo e.toNat = 2 ^ e.toNat from rfl, Nat.cast_pow, ← zpow_natCast,
    Int.toNat_of_nonneg h, Nat.cast_ofNat]

theorem two_zpow_eq_inv_twoTo {e : ℤ} (h : e ≤ 0) : (2 : ℚ) ^ e = (twoTo (-e).toNat : ℚ)⁻¹ := by
  rw [← two_zpow_eq_twoTo (by omega), zpow_neg, inv_inv]

@[simp]
theorem signed_zero (s : Bool) : signed s 0 = 0 := by cases s <;> rfl

theorem signed_mul_signed (s t : Bool) (m n : ℕ) :
    signed s m * signed t n = signed (s != t) (m * n) := by
  cases s <;> cases t <;> simp [signed]

theorem signed_div_signed (s t : Bool) (m n : ℕ) :
    (signed s m : ℚ) / signed t n = signed (s != t) m / n := by
  cases s <;> cases t <;> simp [signed, neg_div, div_neg]

theorem signed_not (s : Bool) (m : ℕ) : signed (!s) m = -signed s m := by cases s <;> simp [signed]

theorem natAbs_signed (s : Bool) (m : ℕ) : (signed s m).natAbs = m := by cases s <;> simp [signed]

theorem signed_natAbs (n : ℤ) : signed (n < 0) n.natAbs = n := by
  by_cases h : n < 0
  · simp only [signed, h, decide_true, if_true]
    omega
  · simp only [signed, h, decide_false, Bool.false_eq_true, if_false]
    omega

/-- The lengths of two naturals leave two candidates for the leading bit of their quotient. -/
theorem quotient_bounds {num den : ℕ} (hnum : 0 < num) (hden : 0 < den) :
    (2 : ℚ) ^ ((num.log2 : ℤ) - den.log2 - 1) ≤ num / den ∧
      (num : ℚ) / den < 2 ^ ((num.log2 : ℤ) - den.log2 + 1) := by
  have hd : (0 : ℚ) < den := by exact_mod_cast hden
  have hn1 : (2 : ℚ) ^ (num.log2 : ℤ) ≤ num := by exact_mod_cast Nat.log2_self_le hnum.ne'
  have hn2 : (num : ℚ) < 2 ^ ((num.log2 : ℤ) + 1) := by exact_mod_cast Nat.lt_log2_self (n := num)
  have hd1 : (2 : ℚ) ^ (den.log2 : ℤ) ≤ den := by exact_mod_cast Nat.log2_self_le hden.ne'
  have hd2 : (den : ℚ) < 2 ^ ((den.log2 : ℤ) + 1) := by exact_mod_cast Nat.lt_log2_self (n := den)
  generalize (num.log2 : ℤ) = n at hn1 hn2 ⊢
  generalize (den.log2 : ℤ) = d at hd1 hd2 ⊢
  constructor
  · rw [le_div_iff₀ hd]
    calc (2 : ℚ) ^ (n - d - 1) * den ≤ 2 ^ (n - d - 1) * 2 ^ (d + 1) :=
          mul_le_mul_of_nonneg_left hd2.le (two_zpow_pos _).le
      _ = 2 ^ n := by
          rw [← zpow_add₀ (by norm_num)]
          congr 1
          omega
      _ ≤ num := hn1
  · rw [div_lt_iff₀ hd]
    calc (num : ℚ) < 2 ^ (n + 1) := hn2
      _ = 2 ^ (n - d + 1) * 2 ^ d := by
          rw [← zpow_add₀ (by norm_num)]
          congr 1
          omega
      _ ≤ 2 ^ (n - d + 1) * den := mul_le_mul_of_nonneg_left hd1 (two_zpow_pos _).le

/-- One comparison of naturals tells whether a quotient reaches a power of two. -/
theorem reached_eq {num den : ℕ} (hden : 0 < den) (e : ℤ) :
    (if 0 ≤ e then decide (den * twoTo e.toNat ≤ num)
      else decide (den ≤ num * twoTo (-e).toNat)) = decide ((2 : ℚ) ^ e ≤ num / den) := by
  have hd : (0 : ℚ) < den := by exact_mod_cast hden
  split_ifs with h
  · rw [decide_eq_decide, le_div_iff₀ hd, two_zpow_eq_twoTo h, mul_comm]
    exact_mod_cast Iff.rfl
  · have htwo : (0 : ℚ) < twoTo (-e).toNat := by exact_mod_cast twoTo_pos _
    rw [decide_eq_decide, le_div_iff₀ hd, two_zpow_eq_inv_twoTo (by omega),
      inv_mul_le_iff₀ htwo, mul_comm]
    exact_mod_cast Iff.rfl

/-- The exponent of the leading bit of a quotient of naturals. -/
theorem floorLog2_eq (num den : ℕ) (hnum : 0 < num) (hden : 0 < den) :
    floorLog2 num den = Int.log 2 ((num : ℚ) / den) := by
  have hpos : (0 : ℚ) < (num : ℚ) / den := by positivity
  rcases quotient_bounds hnum hden with ⟨hlower, hupper⟩
  set guess : ℤ := (num.log2 : ℤ) - den.log2 with hguess
  have hdef : floorLog2 num den
      = if decide ((2 : ℚ) ^ guess ≤ num / den) = true then guess else guess - 1 := by
    rw [← reached_eq hden]
    rfl
  have hlt := (Int.lt_zpow_iff_log_lt (b := 2) (by norm_num) hpos).mp (by exact_mod_cast hupper)
  -- The comparison tells which of the two candidates the leading bit is.
  rw [hdef]
  by_cases h : (2 : ℚ) ^ guess ≤ num / den
  · have := (Int.zpow_le_iff_le_log (b := 2) (by norm_num) hpos).mp (by exact_mod_cast h)
    rw [decide_eq_true h, if_pos rfl]
    omega
  · have := (Int.zpow_le_iff_le_log (b := 2) (by norm_num) hpos).mp (by exact_mod_cast hlower)
    have := (Int.lt_zpow_iff_log_lt (b := 2) (by norm_num) hpos).mp
      (by exact_mod_cast lt_of_not_ge h)
    rw [decide_eq_false h, if_neg Bool.false_ne_true]
    omega

/-- A quotient of naturals, moved by a power of two and rounded to the nearest natural. -/
theorem nearestShifted_eq (num den : ℕ) (shift : ℤ) (hden : 0 < den) :
    (nearestShifted num den shift : ℤ) = roundEven ((num : ℚ) / den * 2 ^ shift) := by
  unfold nearestShifted
  split_ifs with h
  · rw [nearestEven_eq_roundEven _ _ hden, two_zpow_eq_twoTo h, Nat.cast_mul, div_mul_eq_mul_div]
  · rw [nearestEven_eq_roundEven _ _ (Nat.mul_pos hden (twoTo_pos _)),
      two_zpow_eq_inv_twoTo (by omega), Nat.cast_mul, div_mul_eq_div_div, div_eq_mul_inv]

/-- The greatest number of a format. -/
def BinaryFormat.greatest (f : BinaryFormat) : ℚ := (2 ^ f.precision - 1) * 2 ^ f.maxExponent

namespace Binary

variable {f : BinaryFormat}

/-- A number is finite and has a value. -/
def Denotes (x : Binary f) (q : ℚ) : Prop := x.isFinite = true ∧ x.toRat = q

theorem toRat_finite (s : Bool) (m : ℕ) (e : ℤ) (h : f.Canonical m e) :
    toRat (finite s m e h) = signed s m * 2 ^ e := by
  simp only [toRat]
  split_ifs with he
  · rw [two_zpow_eq_twoTo he]
    push_cast
    rfl
  · rw [Rat.mkRat_eq_div, two_zpow_eq_inv_twoTo (by omega), div_eq_mul_inv]

theorem denotes_finite (s : Bool) (m : ℕ) (e : ℤ) (h : f.Canonical m e) :
    (finite s m e h).Denotes (signed s m * 2 ^ e) := ⟨rfl, toRat_finite s m e h⟩

theorem denotes_zero (s : Bool) : (zero s : Binary f).Denotes 0 :=
  ⟨rfl, by rw [zero, toRat_finite, signed_zero, Int.cast_zero, zero_mul]⟩

/-- Zero is a number of every format. -/
theorem denotes_ofNat_zero : (0 : Binary f).Denotes 0 := denotes_zero false

/-- What has a value is a significand with an exponent. -/
theorem Denotes.exists_finite {x : Binary f} {q : ℚ} (h : x.Denotes q) :
    ∃ s m e hc, x = finite s m e hc ∧ q = signed s m * 2 ^ e := by
  cases x with
  | nan => exact absurd h.1 Bool.false_ne_true
  | infinite s => exact absurd h.1 Bool.false_ne_true
  | finite s m e hc => exact ⟨s, m, e, hc, rfl, h.2 ▸ toRat_finite s m e hc⟩

theorem Denotes.unique {x : Binary f} {p q : ℚ} (hp : x.Denotes p) (hq : x.Denotes q) : p = q :=
  hp.2.symm.trans hq.2

/-- A value is a number of the format. -/
theorem Denotes.representable {x : Binary f} {q : ℚ} (h : x.Denotes q) : f.Representable q := by
  rcases h.exists_finite with ⟨s, m, e, hc, -, rfl⟩
  refine ⟨signed s m, e, ?_, hc.2.1, rfl⟩
  have hm : m < 2 ^ f.precision := hc.1
  rw [Int.abs_eq_natAbs, natAbs_signed]
  exact_mod_cast hm.le

/-- No value exceeds the greatest number. -/
theorem Denotes.abs_le_greatest {x : Binary f} {q : ℚ} (h : x.Denotes q) : |q| ≤ f.greatest := by
  rcases h.exists_finite with ⟨s, m, e, hc, -, rfl⟩
  have hm : m + 1 ≤ 2 ^ f.precision := hc.1
  have hm' : (m : ℚ) ≤ 2 ^ f.precision - 1 := by
    rw [le_sub_iff_add_le]
    exact_mod_cast hm
  rw [abs_mul, abs_of_pos (two_zpow_pos e), ← Int.cast_abs, Int.abs_eq_natAbs, natAbs_signed]
  exact mul_le_mul hm' (two_zpow_le hc.2.2.1) (two_zpow_pos e).le
    (by linarith [m.cast_nonneg (α := ℚ)])

/-- A significand and an exponent in canonical form are packed as they are. -/
theorem denotes_pack {s : Bool} {m : ℕ} {e : ℤ} (h : f.Canonical m e) :
    (pack s m e : Binary f).Denotes (signed s m * 2 ^ e) := by
  rw [pack, dif_pos h]
  exact denotes_finite s m e h

/-- A significand that uses all its bits, unless the exponent is the least one, is in canonical form
    as soon as the number is not greater than the greatest one. -/
theorem canonical_of_le_greatest {m : ℕ} {e : ℤ} (hm : m < 2 ^ f.precision)
    (hmin : f.minExponent ≤ e) (hfull : e = f.minExponent ∨ 2 ^ (f.precision - 1) ≤ m)
    (hfit : (m : ℚ) * 2 ^ e ≤ f.greatest) : f.Canonical m e := by
  refine ⟨hm, hmin, ?_, hfull⟩
  rcases hfull with rfl | hfull
  · exact f.minExponent_le
  -- From the next exponent on, even the smallest full significand is too large.
  by_contra hlarge
  have hprec := f.precision_pos
  have hm2 : (2 : ℚ) ^ (f.precision - 1) ≤ m := by exact_mod_cast hfull
  have hpow : (2 : ℚ) ^ f.precision * 2 ^ f.maxExponent
      = 2 ^ (f.precision - 1) * 2 ^ (f.maxExponent + 1) := by
    rw [zpow_add_one₀ (by norm_num), show f.precision = f.precision - 1 + 1 by omega, pow_succ,
      Nat.add_sub_cancel]
    ring
  have hle : (2 : ℚ) ^ (f.precision - 1) * 2 ^ (f.maxExponent + 1) ≤ m * 2 ^ e :=
    mul_le_mul hm2 (two_zpow_le (by omega)) (two_zpow_pos _).le (Nat.cast_nonneg m)
  rw [BinaryFormat.greatest, sub_mul, one_mul, hpow] at hfit
  linarith [two_zpow_pos f.maxExponent]

/-- Moving by a power of two moves the leading bit. -/
theorem log_mul_two_zpow {r : ℚ} (hr : 0 < r) (e : ℤ) :
    Int.log 2 (r * 2 ^ e) = Int.log 2 r + e := by
  have hpos : 0 < r * 2 ^ e := mul_pos hr (two_zpow_pos e)
  refine le_antisymm ?_ ?_
  · have hlt : r < (2 : ℚ) ^ (Int.log 2 r + 1) := by
      exact_mod_cast Int.lt_zpow_succ_log_self (b := 2) (by norm_num) r
    have hmul : r * 2 ^ e < (2 : ℚ) ^ (Int.log 2 r + 1 + e) := by
      rw [zpow_add₀ (by norm_num)]
      exact mul_lt_mul_of_pos_right hlt (two_zpow_pos e)
    have := (Int.lt_zpow_iff_log_lt (b := 2) (by norm_num) hpos).mp (by exact_mod_cast hmul)
    omega
  · refine (Int.zpow_le_iff_le_log (b := 2) (by norm_num) hpos).mp ?_
    have hle : (2 : ℚ) ^ Int.log 2 r ≤ r := by
      exact_mod_cast Int.zpow_log_le_self (b := 2) (by norm_num) hr
    rw [Nat.cast_ofNat, zpow_add₀ (by norm_num)]
    exact mul_le_mul_of_nonneg_right hle (two_zpow_pos e).le

/-- A number is rounded like its size, and keeps its sign. -/
theorem round_signed {s : Bool} {m : ℕ} {r q : ℚ} (hq : q = if s then -r else r)
    (hm : (m : ℤ) = f.significand r) : f.round q = signed s m * 2 ^ f.place q := by
  have hround : f.round r = m * 2 ^ f.place r := by
    rw [BinaryFormat.round, ← hm, Int.cast_natCast]
  cases s with
  | false =>
      rw [hq, if_neg Bool.false_ne_true, hround]
      rfl
  | true =>
      rw [hq, if_pos rfl, BinaryFormat.round_neg, BinaryFormat.place_neg, hround, signed,
        if_pos rfl, Int.cast_neg, Int.cast_natCast, neg_mul]

/-- Only one significand of so many bits does not fit, the power of two after the last that does. -/
theorem eq_of_not_lt_twoTo {m : ℕ} (hle : m ≤ 2 ^ f.precision) (h : ¬m < twoTo f.precision) :
    m = 2 ^ (f.precision - 1) * 2 := by
  rw [← pow_succ, Nat.sub_add_cancel f.precision_pos]
  exact le_antisymm hle (not_lt.mp h)

/-- The power of two after the last significand is half of itself at the next exponent. -/
theorem signed_carry (s : Bool) {m : ℕ} (e : ℤ) (hm : m = 2 ^ (f.precision - 1) * 2) :
    (signed s m : ℚ) * 2 ^ e = signed s (2 ^ (f.precision - 1)) * 2 ^ (e + 1) := by
  rw [hm, zpow_add_one₀ (by norm_num)]
  cases s <;> simp only [signed] <;> push_cast <;> ring

/-- The significand may come out as the next power of two. Then the exponent goes up by one
    instead. -/
theorem denotes_carried {s : Bool} {m : ℕ} {e : ℤ} (hle : m ≤ 2 ^ f.precision)
    (hmin : f.minExponent ≤ e) (hfull : e = f.minExponent ∨ 2 ^ (f.precision - 1) ≤ m)
    (hfit : (m : ℚ) * 2 ^ e ≤ f.greatest) :
    (if m < twoTo f.precision then pack s m e
      else pack s (twoTo (f.precision - 1)) (e + 1) : Binary f).Denotes (signed s m * 2 ^ e) := by
  split_ifs with hlt
  · exact denotes_pack (canonical_of_le_greatest hlt hmin hfull hfit)
  · have hmax := eq_of_not_lt_twoTo hle hlt
    rw [signed_carry s e hmax]
    have hlt : 2 ^ (f.precision - 1) < 2 ^ f.precision :=
      Nat.pow_lt_pow_right (by norm_num) (Nat.sub_lt f.precision_pos Nat.one_pos)
    refine denotes_pack (canonical_of_le_greatest hlt (by omega) (Or.inr le_rfl) ?_)
    rw [hmax, Nat.cast_mul, mul_assoc, Nat.cast_ofNat, mul_comm 2, ← zpow_add_one₀ (by norm_num)]
      at hfit
    exact hfit

/-- What is finite after packing was in canonical form. -/
theorem denotes_pack_of_isFinite {s : Bool} {m : ℕ} {e : ℤ}
    (h : (pack s m e : Binary f).isFinite = true) :
    (pack s m e : Binary f).Denotes (signed s m * 2 ^ e) := by
  by_cases hc : f.Canonical m e
  · exact denotes_pack hc
  · rw [pack, dif_neg hc] at h
    exact absurd h Bool.false_ne_true

/-- A finite result has the value that it was to have. -/
theorem denotes_carried_of_isFinite {s : Bool} {m : ℕ} {e : ℤ} (hle : m ≤ 2 ^ f.precision)
    (h : (if m < twoTo f.precision then pack s m e
      else pack s (twoTo (f.precision - 1)) (e + 1) : Binary f).isFinite = true) :
    (if m < twoTo f.precision then pack s m e
      else pack s (twoTo (f.precision - 1)) (e + 1) : Binary f).Denotes (signed s m * 2 ^ e) := by
  split_ifs at h ⊢ with hlt
  · exact denotes_pack_of_isFinite h
  · rw [signed_carry s e (eq_of_not_lt_twoTo hle hlt)]
    exact denotes_pack_of_isFinite h

/-- The last place at the size of a quotient, as it is worked out from naturals. -/
theorem max_floorLog2_eq {num den : ℕ} (hnum : 0 < num) (hden : 0 < den) (e : ℤ) :
    max f.minExponent (floorLog2 num den + e - (f.precision - 1 : ℕ)) =
      f.place ((num : ℚ) / den * 2 ^ e) := by
  have hratio : (0 : ℚ) < (num : ℚ) / den := by positivity
  rw [BinaryFormat.place, abs_of_pos (mul_pos hratio (two_zpow_pos e)), log_mul_two_zpow hratio,
    floorLog2_eq num den hnum hden]

/-- The significand, as it is worked out from naturals. -/
theorem nearestShifted_eq_significand {num den : ℕ} {e : ℤ} {r : ℚ} (hden : 0 < den)
    (hr : (num : ℚ) / den * 2 ^ e = r) :
    (nearestShifted num den (e - f.place r) : ℤ) = f.significand r := by
  rw [nearestShifted_eq _ _ _ hden, BinaryFormat.significand, ← hr, zpow_sub₀ (by norm_num),
    mul_div_assoc]

/-- A quotient of naturals that is not zero is packed with the last place and the significand that
    the rounding asks for. -/
theorem exists_ofRatio_eq {s : Bool} {num den : ℕ} {e : ℤ} {q : ℚ} (hnum : 0 < num)
    (hden : 0 < den) (hq : q = signed s num / den * 2 ^ e) :
    ∃ m : ℕ, m ≤ 2 ^ f.precision ∧
      (f.place q = f.minExponent ∨ 2 ^ (f.precision - 1) ≤ m) ∧
      f.round q = signed s m * 2 ^ f.place q ∧
      (ofRatio s num den e : Binary f) = if m < twoTo f.precision then pack s m (f.place q)
        else pack s (twoTo (f.precision - 1)) (f.place q + 1) := by
  -- The size `r` is positive, and the sign is carried along.
  have hsize : 0 < (num : ℚ) / den * 2 ^ e := mul_pos (by positivity) (two_zpow_pos e)
  have hlast := max_floorLog2_eq (f := f) hnum hden e
  have hsigned : q = if s then -((num : ℚ) / den * 2 ^ e) else num / den * 2 ^ e := by
    cases s <;> simp [hq, signed, neg_div]
  generalize hr : (num : ℚ) / den * 2 ^ e = r at hsize hsigned hlast
  have hplace : f.place q = f.place r := by
    cases s with
    | false => rw [hsigned, if_neg Bool.false_ne_true]
    | true => rw [hsigned, if_pos rfl, BinaryFormat.place_neg]
  have hm := nearestShifted_eq_significand (f := f) hden hr
  rw [ofRatio, if_neg hnum.ne']
  simp only [hlast]
  rw [← hplace] at hm ⊢
  generalize nearestShifted num den (e - f.place q) = m at hm ⊢
  refine ⟨m, ?_, ?_, round_signed hsigned hm, rfl⟩
  · have := (abs_le.mp (f.abs_significand_le r)).2
    rw [← hm] at this
    exact_mod_cast this
  · rcases (f.minExponent_le_place q).eq_or_lt with heq | hlt
    · exact Or.inl heq.symm
    · have := f.le_significand hsize (hplace ▸ hlt)
      rw [← hm] at this
      exact Or.inr (by exact_mod_cast this)

theorem ofRatio_denotes_zero {s : Bool} {den : ℕ} {e : ℤ} {q : ℚ}
    (hq : q = signed s 0 / den * 2 ^ e) : (ofRatio s 0 den e : Binary f).Denotes (f.round q) := by
  rw [signed_zero, Int.cast_zero, zero_div, zero_mul] at hq
  rw [hq, BinaryFormat.round_zero, ofRatio, if_pos rfl]
  exact denotes_zero s

/-- A quotient of naturals becomes the number that it rounds to. -/
theorem ofRatio_denotes {s : Bool} {num den : ℕ} {e : ℤ} {q : ℚ} (hden : 0 < den)
    (hq : q = signed s num / den * 2 ^ e) (hfit : |f.round q| ≤ f.greatest) :
    (ofRatio s num den e : Binary f).Denotes (f.round q) := by
  rcases Nat.eq_zero_or_pos num with rfl | hnum
  · exact ofRatio_denotes_zero hq
  rcases exists_ofRatio_eq (f := f) hnum hden hq with ⟨m, hle, hfull, hround, heq⟩
  rw [heq]
  rw [hround] at hfit ⊢
  refine denotes_carried hle (f.minExponent_le_place q) hfull ?_
  rwa [abs_mul, abs_of_pos (two_zpow_pos _), ← Int.cast_abs, Int.abs_eq_natAbs, natAbs_signed,
    Int.cast_natCast] at hfit

/-- A finite result did fit, so that it is the number that the quotient rounds to. -/
theorem ofRatio_denotes_of_isFinite {s : Bool} {num den : ℕ} {e : ℤ} {q : ℚ} (hden : 0 < den)
    (hq : q = signed s num / den * 2 ^ e)
    (hfinite : (ofRatio s num den e : Binary f).isFinite = true) :
    (ofRatio s num den e : Binary f).Denotes (f.round q) := by
  rcases Nat.eq_zero_or_pos num with rfl | hnum
  · exact ofRatio_denotes_zero hq
  rcases exists_ofRatio_eq (f := f) hnum hden hq with ⟨m, hle, -, hround, heq⟩
  rw [heq] at hfinite ⊢
  rw [hround]
  exact denotes_carried_of_isFinite hle hfinite

/-- A quotient that is a number of the format becomes that number. -/
theorem ofRatio_denotes_of_representable {s : Bool} {num den : ℕ} {e : ℤ} {q : ℚ} (hden : 0 < den)
    (hq : q = signed s num / den * 2 ^ e) (hr : f.Representable q) (hfit : |q| ≤ f.greatest) :
    (ofRatio s num den e : Binary f).Denotes q := by
  have hround := BinaryFormat.round_of_representable hr
  rw [← hround] at hfit ⊢
  exact ofRatio_denotes hden hq hfit

end Binary

end Darkroom
