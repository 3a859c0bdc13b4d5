import Darkroom.Proofs.Numeric.Grid
import Darkroom.Proofs.Tone.Factors

/-!
# Extreme Knobs

What knobs of any size make of a saturation.

A knob is any finite number with 53 bits. Its factor has 24 bits, and from about `2 ^ 128` on there
is none that large: an infinity stands for it. Most saturations survive that. An infinite multiple
is cut off like any other that is too large or below zero, and a share comes out. But zero times
infinity is not a number, and what is not a number passes every limit.

This happens at zero in the first step. In the second it happens at zero too, and at one as well,
since the weight of the factor is then zero. These are the only saturations that are lost.

## Main definitions

* `IsShareOf`: What a saturation is to become.
* `Blend.Loses`: The saturations that do not survive the factors.

## Theorems

* `infinite_of_not_isFinite`: A finite number that has no counterpart of 24 bits becomes infinite.
* `clampUnit_mul_cases`: One step with a factor of any size.
* `Blend.apply_cases`: Both steps.
* `Adjustment.shares_unless_lost`: What knobs of any size make of a saturation.
-/

namespace Darkroom

namespace Binary

variable {f g : BinaryFormat} {x y : Binary f} {p q : ℚ}

theorem pack_ne_nan (s : Bool) (m : ℕ) (e : ℤ) : (pack s m e : Binary f) ≠ nan := by
  unfold pack
  split <;> exact fun h => by cases h

/-- No quotient of naturals is undefined. -/
theorem ofRatio_ne_nan (s : Bool) (num den : ℕ) (e : ℤ) :
    (ofRatio s num den e : Binary f) ≠ nan := by
  unfold ofRatio
  by_cases hnum : num = 0
  · rw [if_pos hnum]
    exact fun h => by cases h
  · rw [if_neg hnum]
    simp only []
    split_ifs
    · exact pack_ne_nan _ _ _
    · exact pack_ne_nan _ _ _

/-- A finite number that has no counterpart in another format becomes infinite. -/
theorem Denotes.exists_infinite (hx : x.Denotes q) (h : (x.convert : Binary g).isFinite = false) :
    ∃ t, (x.convert : Binary g) = infinite t := by
  have hne : (x.convert : Binary g) ≠ nan := by
    rcases hx.exists_finite with ⟨s, m, e, hc, rfl, -⟩
    exact ofRatio_ne_nan s m 1 e
  cases hy : (x.convert : Binary g) with
  | nan => exact absurd hy hne
  | infinite t => exact ⟨t, rfl⟩
  | finite s m e hc =>
    rw [hy] at h
    cases h

/-- An infinite multiple of a number above zero is infinite. -/
theorem Denotes.mul_infinite (hx : x.Denotes q) (hq : 0 < q) (t : Bool) :
    x * infinite t = infinite t ∧ infinite t * x = infinite t := by
  have hsign := hx.isNegative_eq hq
  have hzero : x.isZero ≠ true := fun h => hq.ne' (hx.isZero_iff.mp h)
  rcases hx.exists_finite with ⟨s, m, e, hc, rfl, -⟩
  have hs : s = false := hsign
  have hm : m ≠ 0 := fun h => hzero (decide_eq_true h)
  subst hs
  constructor
  · show Binary.mul _ _ = _
    rw [Binary.mul, if_neg hm, Bool.false_bne]
  · show Binary.mul _ _ = _
    rw [Binary.mul, if_neg hm, Bool.bne_false]

/-- Zero times infinity is not a number. -/
theorem Denotes.zero_mul_infinite (hx : x.Denotes 0) (t : Bool) :
    x * infinite t = nan ∧ infinite t * x = nan := by
  have hzero := hx.isZero_iff.mpr rfl
  rcases hx.exists_finite with ⟨s, m, e, hc, rfl, -⟩
  have hm : m = 0 := of_decide_eq_true hzero
  constructor
  · show Binary.mul _ _ = _
    rw [Binary.mul, if_pos hm]
  · show Binary.mul _ _ = _
    rw [Binary.mul, if_pos hm]

theorem Denotes.mul_nan (hx : x.Denotes q) : x * nan = nan := by
  rcases hx.exists_finite with ⟨s, m, e, hc, rfl, -⟩
  rfl

end Binary

open Binary

theorem clampUnit_nan : clampUnit .nan = .nan := rfl

/-- What is infinite is cut off at one of the limits. -/
theorem denotes_clampUnit_infinite (t : Bool) :
    (clampUnit (.infinite t)).Denotes (if t then 0 else 1) := by
  cases t with
  | false => exact denotes_one
  | true => exact denotes_ofNat_zero

/-- A number between zero and one has been made of the saturation `s`, and zero of zero. -/
def IsShareOf (y : Single) (s : ℚ) : Prop :=
  ∃ v, y.Denotes v ∧ 0 ≤ v ∧ v ≤ 1 ∧ (s = 0 → v = 0)

theorem isShareOf_self {x : Single} {s : ℚ} (hx : x.Denotes s) (h0 : 0 ≤ s) (h1 : s ≤ 1) :
    IsShareOf x s := ⟨s, hx, h0, h1, id⟩

section

variable {x factor : Single} {s : ℚ} (hx : x.Denotes s) (h0 : 0 ≤ s) (h1 : s ≤ 1)
include hx h0

/-- A step with an infinite factor loses zero, and moves everything else to a limit. -/
theorem clampUnit_mul_infinite (t : Bool) :
    (s = 0 → clampUnit (x * .infinite t) = .nan) ∧
      (s ≠ 0 → IsShareOf (clampUnit (x * .infinite t)) s) := by
  constructor
  · rintro rfl
    rw [(hx.zero_mul_infinite t).1, clampUnit_nan]
  · intro hs
    rw [(hx.mul_infinite (lt_of_le_of_ne h0 hs.symm) t).1]
    refine ⟨_, denotes_clampUnit_infinite t, ?_, ?_, fun h => absurd h hs⟩
    · split_ifs <;> norm_num
    · split_ifs <;> norm_num

include h1

theorem isShareOf_clampUnit_mul {c : ℚ} (hc : factor.Denotes c) :
    IsShareOf (clampUnit (x * factor)) s := by
  have hstep := isShare_stepped c s
  refine ⟨_, denotes_clampUnit_mul hx ⟨hx.representable, h0, h1⟩ hc, hstep.nonneg, hstep.le_one, ?_⟩
  rintro rfl
  exact stepped_zero c

/-- The second step with an infinite factor loses both limits. Its factor is worth nothing at one,
    and is infinite everywhere below. -/
theorem clampUnit_vibrance_infinite (t : Bool) :
    (s = 0 ∨ s = 1 → clampUnit (x * (1 + .infinite t * (1 - x))) = .nan) ∧
      (¬(s = 0 ∨ s = 1) → IsShareOf (clampUnit (x * (1 + .infinite t * (1 - x)))) s) := by
  rcases round_unit (v := 1 - s) (by linarith) (by linarith) with ⟨-, -, -, hfit⟩
  have hrest := denotes_one.sub hx hfit
  have hadd : (1 : Single) + .infinite t = .infinite t := rfl
  rcases h1.lt_or_eq with hlt | rfl
  · -- Something is left below one, and an infinite part of it remains infinite.
    have hpos := BinaryFormat.round_sub_pos denotes_one.representable hx.representable hlt
    rw [(hrest.mul_infinite hpos t).2, hadd]
    rcases clampUnit_mul_infinite hx h0 t with ⟨hlost, hkept⟩
    refine ⟨?_, fun h => hkept fun hs => h (Or.inl hs)⟩
    rintro (hs | hs)
    · exact hlost hs
    · exact absurd hs hlt.ne
  · rw [sub_self, BinaryFormat.round_zero] at hrest
    have hnan : (1 : Single) + .nan = .nan := rfl
    rw [(hrest.zero_mul_infinite t).2, hnan, hx.mul_nan]
    exact ⟨fun _ => clampUnit_nan, fun h => absurd (Or.inr rfl) h⟩

end

namespace Blend

/-- Each factor is finite or infinite. -/
structure IsNumber (b : Blend) : Prop where
  scale : ∀ factor ∈ b.scale, factor.isFinite = false → ∃ t, factor = .infinite t
  vibrance : ∀ factor ∈ b.vibrance, factor.isFinite = false → ∃ t, factor = .infinite t

/-- A saturation does not survive the factors: an infinite one meets zero in the first step, or
    either limit in the second. -/
def Loses (b : Blend) (x : Single) (s : ℚ) : Prop :=
  (∃ factor ∈ b.scale, factor.isFinite = false ∧ s = 0) ∨
    ∃ factor ∈ b.vibrance, factor.isFinite = false ∧
      ((b.scaled x).Denotes 0 ∨ (b.scaled x).Denotes 1)

variable {b : Blend} {x : Single} {s : ℚ}

/-- The first step loses zero when its factor is infinite, and nothing else. -/
theorem scaled_cases (hb : b.IsNumber) (hx : x.Denotes s) (h0 : 0 ≤ s) (h1 : s ≤ 1) :
    ((∃ factor ∈ b.scale, factor.isFinite = false ∧ s = 0) → b.scaled x = .nan) ∧
      ((¬∃ factor ∈ b.scale, factor.isFinite = false ∧ s = 0) → IsShareOf (b.scaled x) s) := by
  unfold scaled
  cases hscale : b.scale with
  | none =>
    refine ⟨?_, fun _ => isShareOf_self hx h0 h1⟩
    rintro ⟨factor, ⟨⟩, -⟩
  | some factor =>
    simp only [Option.mem_def, Option.some.injEq, exists_eq_left']
    by_cases hfinite : factor.isFinite = true
    · rcases exists_denotes_of_isFinite hfinite with ⟨c, hc⟩
      rw [hfinite]
      exact ⟨fun h => absurd h.1 (by decide), fun _ => isShareOf_clampUnit_mul hx h0 h1 hc⟩
    · rw [Bool.not_eq_true] at hfinite
      rcases hb.scale factor hscale hfinite with ⟨t, rfl⟩
      rcases clampUnit_mul_infinite hx h0 t with ⟨hlost, hkept⟩
      exact ⟨fun h => hlost h.2, fun h => hkept fun hs => h ⟨hfinite, hs⟩⟩

/-- What both steps make of a saturation. -/
theorem apply_cases (hb : b.IsNumber) (hx : x.Denotes s) (h0 : 0 ≤ s) (h1 : s ≤ 1) :
    (b.Loses x s → b.apply x = .nan) ∧ (¬b.Loses x s → IsShareOf (b.apply x) s) := by
  rcases scaled_cases hb hx h0 h1 with ⟨hlost, hkept⟩
  rw [apply_eq]
  unfold Loses
  by_cases hfirst : ∃ factor ∈ b.scale, factor.isFinite = false ∧ s = 0
  · -- What is lost in the first step stays lost.
    refine ⟨fun _ => ?_, fun h => absurd (Or.inl hfirst) h⟩
    rw [hlost hfirst]
    cases b.vibrance <;> rfl
  rcases hkept hfirst with ⟨u, hu, hu0, hu1, huzero⟩
  rw [or_iff_right hfirst]
  cases hvibrance : b.vibrance with
  | none =>
    refine ⟨?_, fun _ => ⟨u, hu, hu0, hu1, huzero⟩⟩
    rintro ⟨factor, ⟨⟩, -⟩
  | some factor =>
    simp only [Option.mem_def, Option.some.injEq, exists_eq_left']
    by_cases hfinite : factor.isFinite = true
    · rcases exists_denotes_of_isFinite hfinite with ⟨w, hw⟩
      have hc := denotes_weighted hu ⟨hu.representable, hu0, hu1⟩ hw
      rcases isShareOf_clampUnit_mul hu hu0 hu1 hc with ⟨v, hv, hv0, hv1, hvzero⟩
      rw [hfinite]
      exact ⟨fun h => absurd h.1 (by decide),
        fun _ => ⟨v, hv, hv0, hv1, fun hs => hvzero (huzero hs)⟩⟩
    · rw [Bool.not_eq_true] at hfinite
      rcases hb.vibrance factor hvibrance hfinite with ⟨t, rfl⟩
      have hdenotes (q : ℚ) : (b.scaled x).Denotes q ↔ u = q :=
        ⟨fun h => hu.unique h, fun h => h ▸ hu⟩
      rw [hdenotes, hdenotes]
      rcases clampUnit_vibrance_infinite hu hu0 hu1 t with ⟨hlost2, hkept2⟩
      refine ⟨fun h => hlost2 h.2, fun h => ?_⟩
      rcases hkept2 fun hlimit => h ⟨hfinite, hlimit⟩ with ⟨v, hv, hv0, hv1, hvzero⟩
      exact ⟨v, hv, hv0, hv1, fun hs => hvzero (huzero hs)⟩

end Blend

namespace Adjustment

variable {s v : Double} {p q : ℚ}

/-- The factors of real knobs. -/
def realFactors (s v : Double) : Blend where
  scale := if s.isZero then none else some (Binary.convert ((1 : Double) + s))
  vibrance := if v.isZero then none else some v.convert

theorem blend_real (s v : Double) : blend ⟨.real s, .real v⟩ = .ok (realFactors s v) := by
  unfold blend scale vibranceFactor realFactors
  by_cases hs : s.isZero = true <;> by_cases hv : v.isZero = true <;>
    simp [Number.isZero, Number.toDouble, hs, hv] <;> rfl

/-- A knob at zero has a finite factor, which is left out. -/
theorem isFinite_scale_of_isZero (hs : s.isZero = true) (hp : s.Denotes p) :
    (Binary.convert ((1 : Double) + s) : Single).isFinite = true := by
  have hsum := denotes_one_add hp
  rw [hp.isZero_iff.mp hs, add_zero, denotes_one_double.round_eq.1] at hsum
  exact (hsum.convert_exact denotes_one).1

theorem isFinite_convert_of_isZero (hv : v.isZero = true) (hq : v.Denotes q) :
    (v.convert : Single).isFinite = true := by
  rw [hq.isZero_iff.mp hv] at hq
  exact (hq.convert_exact denotes_ofNat_zero).1

/-- A factor that is left out at zero is finite there, so only one that is used can be infinite. -/
theorem exists_infinite_iff {zero : Bool} {c : Single} {P : Prop}
    (h : zero = true → c.isFinite = true) :
    (∃ factor ∈ if zero then none else some c, factor.isFinite = false ∧ P) ↔
      c.isFinite = false ∧ P := by
  cases zero with
  | false => simp
  | true =>
    rw [h rfl]
    simp

theorem infinite_of_mem {zero : Bool} {c factor : Single}
    (hmem : factor ∈ if zero then none else some c)
    (h : c.isFinite = false → ∃ t, c = .infinite t) (hfactor : factor.isFinite = false) :
    ∃ t, factor = .infinite t := by
  cases zero with
  | false =>
    cases hmem
    exact h hfactor
  | true => cases hmem

theorem isNumber_realFactors (hp : s.Denotes p) (hq : v.Denotes q) :
    (realFactors s v).IsNumber where
  scale _ hmem := infinite_of_mem hmem fun h => (denotes_one_add hp).exists_infinite h
  vibrance _ hmem := infinite_of_mem hmem fun h => hq.exists_infinite h

/-- Knobs of any size give a share, with two exceptions. Let the factors be the numbers of 24 bits
    nearest to one more than the first knob, and to the second. If the first is infinite, a
    saturation of zero is lost; if the second is, a saturation is lost that the first step has left
    at zero or at one. What is lost comes out as not-a-number. Everything else comes out as a
    number between zero and one, and zero as zero. -/
theorem shares_unless_lost (s v : Double) (hs : s.isFinite = true) (hv : v.isFinite = true)
    (x : Single) (r : ℚ) (hx : x.Denotes r) (h0 : 0 ≤ r) (h1 : r ≤ 1) :
    ∃ b, blend ⟨.real s, .real v⟩ = .ok b ∧
      let lost := ((Binary.convert ((1 : Double) + s) : Single).isFinite = false ∧ r = 0) ∨
        ((v.convert : Single).isFinite = false ∧
          ((b.scaled x).Denotes 0 ∨ (b.scaled x).Denotes 1))
      (lost → b.apply x = .nan) ∧
        (¬lost → ∃ w, (b.apply x).Denotes w ∧ 0 ≤ w ∧ w ≤ 1 ∧ (r = 0 → w = 0)) := by
  rcases exists_denotes_of_isFinite hs with ⟨p, hp⟩
  rcases exists_denotes_of_isFinite hv with ⟨q, hq⟩
  refine ⟨realFactors s v, blend_real s v, ?_⟩
  have hcases := Blend.apply_cases (isNumber_realFactors hp hq) hx h0 h1
  have hlost : (realFactors s v).Loses x r ↔ _ := or_congr
    (exists_infinite_iff fun h => isFinite_scale_of_isZero h hp)
    (exists_infinite_iff fun h => isFinite_convert_of_isZero h hq)
  rw [hlost] at hcases
  exact hcases

/-- The first factor is infinite, and a saturation of one half becomes one. -/
theorem shares_unless_lost_half :
    ∃ b, blend ⟨.real (ofInt (10 ^ 39)), .real 0⟩ = .ok b ∧
      ∃ w, (b.apply half).Denotes w ∧ 0 ≤ w ∧ w ≤ 1 := by
  rcases shares_unless_lost (ofInt (10 ^ 39)) 0 (by decide) (by decide) half (1 / 2) denotes_half
    (by norm_num) (by norm_num) with ⟨b, hb, -, hkept⟩
  refine ⟨b, hb, ?_⟩
  have hfinite : (Binary.convert (0 : Double) : Single).isFinite = true := by decide
  rcases hkept (by rw [hfinite]; norm_num) with ⟨w, hw, hw0, hw1, -⟩
  exact ⟨w, hw, hw0, hw1⟩

/-- With the same knobs a saturation of zero is lost. -/
theorem apply_zero_extreme :
    (ofInt (10 ^ 39) : Double).isFinite = true ∧
      ∃ b, blend ⟨.real (ofInt (10 ^ 39)), .real 0⟩ = .ok b ∧ b.apply 0 = .nan :=
  ⟨by decide, _, blend_real _ _, by decide⟩

end Adjustment

end Darkroom
