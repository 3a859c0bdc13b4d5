import Darkroom.Proofs.Numeric.Value

/-!
# Exact, then Rounded

Every operation gives the number that its exact result rounds to, and every comparison compares
values.

The operations bring their operands to a common exponent, multiply significands, or divide them, and
hand the outcome to the one rounding function. What is proved here is only that the outcome is the
exact result; the rounding is `ofRatio_denotes` each time.

## Theorems

* `Denotes.add`, `Denotes.sub`, `Denotes.mul`, `Denotes.div`: The operations, by values.
* `Denotes.lt_iff`, `Denotes.le_iff`, `Denotes.equal_iff`: The comparisons, by values.
* `Denotes.maximum`, `Denotes.minimum`, `Denotes.clamp`: The choices, by values.
* `Denotes.modulo_one`: The remainder by one is the fractional part.
* `Denotes.roundToIntegral`, `Denotes.truncate?`: The whole numbers near a value.
-/

namespace Darkroom

namespace Binary

variable {f : BinaryFormat} {x y : Binary f} {p q : ℚ}

/-- A significand brought to a smaller exponent. -/
theorem mul_two_zpow_eq (m : ℤ) {c e : ℤ} (h : c ≤ e) :
    (m : ℚ) * 2 ^ e = ((m * twoTo (e - c).toNat : ℤ) : ℚ) * 2 ^ c := by
  rw [Int.cast_mul, Int.cast_natCast, ← two_zpow_eq_twoTo (by omega), mul_assoc,
    ← zpow_add₀ (by norm_num), sub_add_cancel]

theorem ofScaled_denotes {value exponent : ℤ} {zeroSign : Bool} (hq : q = value * 2 ^ exponent)
    (hfit : |f.round q| ≤ f.greatest) :
    (ofScaled value exponent zeroSign : Binary f).Denotes (f.round q) := by
  by_cases h : value = 0
  · rw [h, Int.cast_zero, zero_mul] at hq
    rw [ofScaled, if_pos h, hq, BinaryFormat.round_zero]
    exact denotes_zero zeroSign
  · rw [ofScaled, if_neg h]
    refine ofRatio_denotes Nat.one_pos ?_ hfit
    rw [signed_natAbs, Nat.cast_one, div_one]
    exact hq

theorem ofInt_denotes {n : ℤ} (hfit : |f.round n| ≤ f.greatest) :
    (ofInt n : Binary f).Denotes (f.round n) :=
  ofScaled_denotes (by rw [zpow_zero, mul_one]) hfit

/-- A whole number that becomes finite is the number that it rounds to. -/
theorem ofInt_denotes_of_isFinite {n : ℤ} (hfinite : (ofInt n : Binary f).isFinite = true) :
    (ofInt n : Binary f).Denotes (f.round n) := by
  unfold ofInt ofScaled at hfinite ⊢
  split_ifs at hfinite ⊢ with h
  · rw [h, Int.cast_zero, BinaryFormat.round_zero]
    exact denotes_zero false
  · refine ofRatio_denotes_of_isFinite Nat.one_pos ?_ hfinite
    rw [signed_natAbs, Nat.cast_one, div_one, zpow_zero, mul_one]

theorem Denotes.neg (h : x.Denotes q) : (-x).Denotes (-q) := by
  rcases h.exists_finite with ⟨s, m, e, hc, rfl, rfl⟩
  have hneg := denotes_finite (!s) m e hc
  rw [signed_not, Int.cast_neg, neg_mul] at hneg
  exact hneg

theorem Denotes.add (hx : x.Denotes p) (hy : y.Denotes q)
    (hfit : |f.round (p + q)| ≤ f.greatest) : (x + y).Denotes (f.round (p + q)) := by
  rcases hx.exists_finite with ⟨s, m, e, hc, rfl, rfl⟩
  rcases hy.exists_finite with ⟨t, n, d, hd, rfl, rfl⟩
  refine ofScaled_denotes ?_ hfit
  rw [mul_two_zpow_eq (signed s m) (min_le_left e d),
    mul_two_zpow_eq (signed t n) (min_le_right e d),
    ← add_mul, ← Int.cast_add]

theorem Denotes.sub (hx : x.Denotes p) (hy : y.Denotes q)
    (hfit : |f.round (p - q)| ≤ f.greatest) : (x - y).Denotes (f.round (p - q)) := by
  rw [sub_eq_add_neg] at hfit ⊢
  exact hx.add hy.neg hfit

theorem Denotes.mul (hx : x.Denotes p) (hy : y.Denotes q)
    (hfit : |f.round (p * q)| ≤ f.greatest) : (x * y).Denotes (f.round (p * q)) := by
  rcases hx.exists_finite with ⟨s, m, e, hc, rfl, rfl⟩
  rcases hy.exists_finite with ⟨t, n, d, hd, rfl, rfl⟩
  refine ofRatio_denotes Nat.one_pos ?_ hfit
  rw [← signed_mul_signed, Int.cast_mul, zpow_add₀ (by norm_num), Nat.cast_one, div_one]
  ring

theorem Denotes.div (hx : x.Denotes p) (hy : y.Denotes q) (hq : q ≠ 0)
    (hfit : |f.round (p / q)| ≤ f.greatest) : (x / y).Denotes (f.round (p / q)) := by
  rcases hx.exists_finite with ⟨s, m, e, hc, rfl, rfl⟩
  rcases hy.exists_finite with ⟨t, n, d, hd, rfl, rfl⟩
  -- A divisor that is not zero leaves the branch that gives infinities.
  have hn : n ≠ 0 := by
    rintro rfl
    exact hq (by rw [signed_zero, Int.cast_zero, zero_mul])
  have hquot : (finite s m e hc / finite t n d hd : Binary f) = ofRatio (s != t) m n (e - d) := by
    show Binary.div _ _ = _
    rw [Binary.div, if_neg hn]
  rw [hquot]
  refine ofRatio_denotes (Nat.pos_of_ne_zero hn) ?_ hfit
  rw [mul_div_mul_comm, signed_div_signed, zpow_sub₀ (by norm_num)]

/-- A number of another format is the one that a value rounds to. -/
theorem Denotes.convert {g : BinaryFormat} (h : x.Denotes q) (hfit : |g.round q| ≤ g.greatest) :
    (x.convert : Binary g).Denotes (g.round q) := by
  rcases h.exists_finite with ⟨s, m, e, hc, rfl, rfl⟩
  exact ofRatio_denotes Nat.one_pos (by rw [Nat.cast_one, div_one]) hfit

/-- A number of another format that is finite is the one that a value rounds to. -/
theorem Denotes.convert_of_isFinite {g : BinaryFormat} (h : x.Denotes q)
    (hfinite : (x.convert : Binary g).isFinite = true) :
    (x.convert : Binary g).Denotes (g.round q) := by
  rcases h.exists_finite with ⟨s, m, e, hc, rfl, rfl⟩
  exact ofRatio_denotes_of_isFinite Nat.one_pos (by rw [Nat.cast_one, div_one]) hfinite

/-- A whole number of so many bits is kept as it is. -/
theorem denotes_ofInt (n : ℤ) (h : |n| ≤ 2 ^ f.precision) (hmin : f.minExponent ≤ 0)
    (hmax : |(n : ℚ)| ≤ f.greatest) : (ofInt n : Binary f).Denotes n := by
  have hround := BinaryFormat.round_of_representable (BinaryFormat.representable_intCast h hmin)
  have hn := ofInt_denotes (f := f) (n := n) (by rwa [hround])
  rwa [hround] at hn

theorem denotes_ofNat (n : ℕ) (h : n ≤ 2 ^ f.precision) (hmin : f.minExponent ≤ 0)
    (hmax : (n : ℚ) ≤ f.greatest) : (OfNat.ofNat n : Binary f).Denotes n := by
  have hn := denotes_ofInt (f := f) n (by rw [Nat.abs_cast]; exact_mod_cast h) hmin
    (by rwa [Int.cast_natCast, Nat.abs_cast])
  rwa [Int.cast_natCast] at hn

theorem scaledLess_iff (a b e d : ℤ) :
    scaledLess a e b d = true ↔ (a : ℚ) * 2 ^ e < b * 2 ^ d := by
  rw [mul_two_zpow_eq a (min_le_left e d), mul_two_zpow_eq b (min_le_right e d),
    mul_lt_mul_iff_left₀ (two_zpow_pos _), Int.cast_lt, scaledLess, decide_eq_true_iff]

theorem Denotes.less_iff (hx : x.Denotes p) (hy : y.Denotes q) : x.less y = true ↔ p < q := by
  rcases hx.exists_finite with ⟨s, m, e, hc, rfl, rfl⟩
  rcases hy.exists_finite with ⟨t, n, d, hd, rfl, rfl⟩
  exact scaledLess_iff _ _ _ _

theorem Denotes.lt_iff (hx : x.Denotes p) (hy : y.Denotes q) : x < y ↔ p < q :=
  hx.less_iff hy

theorem Denotes.equal_iff (hx : x.Denotes p) (hy : y.Denotes q) : x.equal y = true ↔ p = q := by
  have hdef : x.equal y = (!x.less y && !y.less x) := by
    rcases hx.exists_finite with ⟨s, m, e, hc, rfl, -⟩
    rcases hy.exists_finite with ⟨t, n, d, hd, rfl, -⟩
    rfl
  rw [hdef, Bool.and_eq_true, Bool.not_eq_true', Bool.not_eq_true', ← Bool.not_eq_true,
    ← Bool.not_eq_true, hx.less_iff hy, hy.less_iff hx, not_lt, not_lt, and_comm]
  exact le_antisymm_iff.symm

theorem Denotes.le_iff (hx : x.Denotes p) (hy : y.Denotes q) : x ≤ y ↔ p ≤ q := by
  have : x ≤ y ↔ (x.less y || x.equal y) = true := Iff.rfl
  rw [this, Bool.or_eq_true, hx.less_iff hy, hx.equal_iff hy, le_iff_lt_or_eq]

theorem Denotes.isNaN_eq (h : x.Denotes q) : x.isNaN = false := by
  rcases h.exists_finite with ⟨s, m, e, hc, rfl, -⟩
  rfl

theorem Denotes.isZero_iff (h : x.Denotes q) : x.isZero = true ↔ q = 0 := by
  rcases h.exists_finite with ⟨s, m, e, hc, rfl, rfl⟩
  rw [mul_eq_zero, or_iff_left (two_zpow_pos e).ne', Int.cast_eq_zero, isZero, decide_eq_true_iff]
  cases s <;> simp [signed]

theorem Denotes.isNegative_eq (h : x.Denotes q) (hq : 0 < q) : x.isNegative = false := by
  rcases h.exists_finite with ⟨s, m, e, hc, rfl, rfl⟩
  cases s with
  | false => rfl
  | true =>
      rw [mul_pos_iff_of_pos_right (two_zpow_pos e), Int.cast_pos, signed, if_pos rfl] at hq
      omega

theorem Denotes.maximum (hx : x.Denotes p) (hy : y.Denotes q) :
    (x.maximum y).Denotes (max p q) := by
  rw [Binary.maximum, hx.isNaN_eq, hy.isNaN_eq, if_neg Bool.false_ne_true,
    if_neg Bool.false_ne_true]
  split_ifs with hle
  · rwa [max_eq_left ((hy.le_iff hx).mp hle)]
  · rwa [max_eq_right (not_le.mp (fun h => hle ((hy.le_iff hx).mpr h))).le]

theorem Denotes.minimum (hx : x.Denotes p) (hy : y.Denotes q) :
    (x.minimum y).Denotes (min p q) := by
  rw [Binary.minimum, hx.isNaN_eq, hy.isNaN_eq, if_neg Bool.false_ne_true,
    if_neg Bool.false_ne_true]
  split_ifs with hle
  · rwa [min_eq_left ((hx.le_iff hy).mp hle)]
  · rwa [min_eq_right (not_le.mp (fun h => hle ((hx.le_iff hy).mpr h))).le]

theorem Denotes.clamp {lo hi : Binary f} {a b : ℚ} (hx : x.Denotes q) (hlo : lo.Denotes a)
    (hhi : hi.Denotes b) (hab : a ≤ b) : (x.clamp lo hi).Denotes (max a (min b q)) := by
  rw [Binary.clamp, hx.isNaN_eq, if_neg Bool.false_ne_true]
  split_ifs with hlow hhigh
  · rwa [min_eq_right (((hx.le_iff hlo).mp hlow).trans hab), max_eq_left ((hx.le_iff hlo).mp hlow)]
  · rwa [min_eq_left ((hhi.le_iff hx).mp hhigh), max_eq_right hab]
  · have h1 : a < q := not_le.mp fun h => hlow ((hx.le_iff hlo).mpr h)
    have h2 : q < b := not_le.mp fun h => hhigh ((hhi.le_iff hx).mpr h)
    rwa [min_eq_right h2.le, max_eq_right h1.le]

/-- A significand over a power of two is rounded as its size is, and keeps its sign. -/
theorem roundEven_signed (s : Bool) (m : ℕ) {den : ℕ} (hden : 0 < den) :
    roundEven ((signed s m : ℚ) / den) = signed s (nearestEven m den) := by
  have hnat := nearestEven_eq_roundEven m den hden
  cases s with
  | false =>
      rw [show signed false m = (m : ℤ) from rfl, Int.cast_natCast, ← hnat]
      rfl
  | true =>
      rw [show signed true m = -(m : ℤ) from rfl, Int.cast_neg, Int.cast_natCast, neg_div,
        roundEven_neg, ← hnat]
      rfl

/-- The nearest whole number. Nothing is lost: below the exponent zero it has no more bits than the
    number, and from there on the number is whole already. -/
theorem Denotes.roundToIntegral (h : x.Denotes q) (hmin : f.minExponent ≤ 0)
    (hfit : |(roundEven q : ℚ)| ≤ f.greatest) : x.roundToIntegral.Denotes (roundEven q) := by
  rcases h.exists_finite with ⟨s, m, e, hc, rfl, rfl⟩
  rw [Binary.roundToIntegral]
  split_ifs with he
  · -- The number is whole.
    have hwhole : (signed s m : ℚ) * 2 ^ e = ((signed s m * twoTo e.toNat : ℤ) : ℚ) := by
      rw [two_zpow_eq_twoTo he, Int.cast_mul, Int.cast_natCast]
    rw [hwhole, roundEven_intCast, ← hwhole]
    exact h
  · have hpos := twoTo_pos (-e).toNat
    rw [two_zpow_eq_inv_twoTo (by omega), ← div_eq_mul_inv, roundEven_signed s m hpos] at hfit ⊢
    have hr : f.Representable (signed s (nearestEven m (twoTo (-e).toNat))) := by
      refine BinaryFormat.representable_intCast ?_ hmin
      have hm : m < 2 ^ f.precision := hc.1
      rw [Int.abs_eq_natAbs, natAbs_signed]
      exact_mod_cast (nearestEven_le m hpos).trans hm.le
    refine ofRatio_denotes_of_representable Nat.one_pos ?_ hr hfit
    rw [Nat.cast_one, div_one, zpow_zero, mul_one]

/-- A whole value is cut off nowhere. -/
theorem Denotes.truncate? {n : ℤ} (h : x.Denotes n) : x.truncate? = some n := by
  rcases h.exists_finite with ⟨s, m, e, hc, rfl, hn⟩
  rw [Binary.truncate?]
  congr 1
  split_ifs with he
  · rw [two_zpow_eq_twoTo he] at hn
    have : n = signed s m * twoTo e.toNat := by exact_mod_cast hn
    rw [this]
    cases s <;> simp [signed]
  · have htwo : (0 : ℚ) < twoTo (-e).toNat := by exact_mod_cast twoTo_pos _
    rw [two_zpow_eq_inv_twoTo (by omega), ← div_eq_mul_inv, eq_div_iff htwo.ne'] at hn
    have hm : n * twoTo (-e).toNat = signed s m := by exact_mod_cast hn
    -- The significand is a multiple of the power, so the division leaves nothing.
    cases s with
    | false =>
        rw [signed, if_neg Bool.false_ne_true] at hm ⊢
        rw [Int.natCast_div, ← hm, Int.mul_ediv_cancel _ (by exact_mod_cast htwo.ne')]
    | true =>
        rw [signed, if_pos rfl] at hm ⊢
        rw [Int.natCast_div, ← neg_eq_iff_eq_neg.mpr hm, ← neg_mul,
          Int.mul_ediv_cancel _ (by exact_mod_cast htwo.ne'), neg_neg]

/-- The remainder of significands by the significand of one, at a common exponent, is the fractional
    part. -/
theorem fract_mul_two_zpow {M K : ℕ} {c : ℤ} (hK : (K : ℚ) * 2 ^ c = 1) :
    Int.fract ((M : ℚ) * 2 ^ c) = (M % K : ℕ) * 2 ^ c := by
  have hpos := two_zpow_pos c
  have hK0 : 0 < K := Nat.pos_of_ne_zero (by rintro rfl; simp at hK)
  rw [Int.fract_eq_iff]
  refine ⟨by positivity, ?_, (M / K : ℕ), ?_⟩
  · rw [← hK]
    exact mul_lt_mul_of_pos_right (by exact_mod_cast Nat.mod_lt M hK0) hpos
  · have hsplit : (K : ℚ) * (M / K : ℕ) + (M % K : ℕ) = M := by exact_mod_cast Nat.div_add_mod M K
    rw [← hsplit, Int.cast_natCast, add_mul, add_sub_cancel_right, mul_right_comm, hK, one_mul]

/-- Two significands at one exponent, the smaller of theirs. Either operand may have it, and its own
    significand then bounds the remainder. -/
theorem aligned_mod_lt {m n k : ℕ} {e d : ℤ} (hm : m < k) (hn : n < k) (hn0 : n ≠ 0) :
    m * twoTo (e - min e d).toNat % (n * twoTo (d - min e d).toNat) < k := by
  rcases le_total e d with hle | hle
  · rw [min_eq_left hle, sub_self, Int.toNat_zero, show twoTo 0 = 1 from rfl, mul_one]
    exact lt_of_le_of_lt (Nat.mod_le _ _) hm
  · rw [min_eq_right hle, sub_self, Int.toNat_zero, show twoTo 0 = 1 from rfl, mul_one]
    exact lt_trans (Nat.mod_lt _ (Nat.pos_of_ne_zero hn0)) hn

/-- The number one is a positive significand at some exponent. -/
theorem exists_significand_of_one (h1 : (1 : Binary f).Denotes 1) :
    ∃ n d hd, (1 : Binary f) = finite false n d hd ∧ n ≠ 0 ∧ (n : ℚ) * 2 ^ d = 1 := by
  rcases h1.exists_finite with ⟨s, n, d, hd, hone, hvalue⟩
  have hs : s = false := by
    have := h1.isNegative_eq one_pos
    rwa [hone] at this
  subst hs
  refine ⟨n, d, hd, hone, ?_, hvalue.symm⟩
  rintro rfl
  rw [signed_zero, Int.cast_zero, zero_mul] at hvalue
  exact one_ne_zero hvalue

/-- The remainder by one is exact: it has no more bits than the number, or fewer than one has at its
    last place. -/
theorem Denotes.truncatedRemainder_one (h : x.Denotes q) (hq : 0 ≤ q)
    (h1 : (1 : Binary f).Denotes 1) : (x.truncatedRemainder 1).Denotes (Int.fract q) := by
  have hfit : |Int.fract q| ≤ f.greatest := by
    rw [abs_of_nonneg (Int.fract_nonneg q)]
    exact (Int.fract_lt_one q).le.trans ((le_abs_self 1).trans h1.abs_le_greatest)
  rcases h.exists_finite with ⟨s, m, e, hc, rfl, rfl⟩
  rcases exists_significand_of_one h1 with ⟨n, d, hd, hone, hn, hvalue⟩
  have hK : ((n * twoTo (d - min e d).toNat : ℕ) : ℚ) * 2 ^ min e d = 1 := by
    have hscaled := mul_two_zpow_eq n (min_le_right e d)
    rw [Int.cast_natCast, hvalue] at hscaled
    exact_mod_cast hscaled.symm
  rw [hone, Binary.truncatedRemainder, if_neg hn]
  simp only []
  split_ifs with hm
  · have hzero : (signed s m : ℚ) * 2 ^ e = 0 := by
      rw [hm, signed_zero, Int.cast_zero, zero_mul]
    rw [hzero, Int.fract_zero, ← hzero]
    exact h
  · -- At the common exponent the remainder of the significands is the fractional part.
    have hs : s = false := by
      have hpos : 0 < (signed s m : ℚ) * 2 ^ e := by
        refine lt_of_le_of_ne hq (Ne.symm fun hz => hm ?_)
        exact of_decide_eq_true (h.isZero_iff.mpr hz)
      exact h.isNegative_eq hpos
    have hfract : Int.fract ((signed s m : ℚ) * 2 ^ e)
        = (m * twoTo (e - min e d).toNat % (n * twoTo (d - min e d).toNat) : ℕ) * 2 ^ min e d := by
      rw [← fract_mul_two_zpow hK, mul_two_zpow_eq _ (min_le_left e d), hs]
      push_cast
      rfl
    have hr : f.Representable (Int.fract ((signed s m : ℚ) * 2 ^ e)) := by
      refine ⟨_, min e d, ?_, le_min hc.2.1 hd.2.1, by rw [hfract, Int.cast_natCast]⟩
      rw [Nat.abs_cast]
      exact_mod_cast (aligned_mod_lt hc.1 hd.1 hn).le
    refine ofRatio_denotes_of_representable Nat.one_pos ?_ hr hfit
    rw [hfract, hs, Nat.cast_one, div_one]
    rfl

/-- The remainder by one of a number that is not negative is its fractional part. -/
theorem Denotes.modulo_one (h : x.Denotes q) (hq : 0 ≤ q) (h1 : (1 : Binary f).Denotes 1) :
    (x.modulo 1).Denotes (Int.fract q) := by
  have hr := h.truncatedRemainder_one hq h1
  have hone : (1 : Binary f).isZero = false :=
    Bool.eq_false_iff.mpr fun hz => one_ne_zero (h1.isZero_iff.mp hz)
  rw [Binary.modulo]
  simp only [hone, hr.isNaN_eq, Bool.or_self, Bool.false_eq_true, if_false]
  by_cases hzero : Int.fract q = 0
  · rw [if_pos (hr.isZero_iff.mpr hzero), hzero]
    exact denotes_zero _
  · have hpos : 0 < Int.fract q := lt_of_le_of_ne (Int.fract_nonneg q) (Ne.symm hzero)
    rw [if_neg fun hz => hzero (hr.isZero_iff.mp hz), hr.isNegative_eq hpos,
      h1.isNegative_eq one_pos]
    exact hr

end Binary

end Darkroom
