import Darkroom.Proofs.Numeric.Given
import Darkroom.Proofs.Tone.StepValues

/-!
# Factors of a Saturation

What the factors of the two knobs make of a saturation.

A step that is left out has no factor. It counts as one whose factor changes nothing: one in the
first step, zero in the second. So every blend of finite factors has two values, and what it makes
of a saturation is a function of these and of the saturation, `blended`.

The values come from the knobs by roundings, which keep the order. A knob that is not below zero has
a first factor of at least one and a second factor of at least zero, and the other way round. So the
sign of the knobs decides on which side of the saturation the result lies, and nothing has to be
assumed of their size but that the factors are finite.

## Main definitions

* `Blend.HasFactors`: The values of both factors.
* `Blend.IsFinite`: Both factors are finite.
* `Blend.Raises`, `Blend.Lowers`: The directions of the factors.
* `Blend.Takes`: What is true of the saturation that the factors make of another.
* `Blend.scaled`: What is left of a saturation after the first step.
* `Adjustment.IsFinite`: Both knobs stand for finite factors.
* `Adjustment.scaleValue`, `Adjustment.vibranceValue`: The values that these have.

## Theorems

* `Blend.HasFactors.denotes_apply`: Both steps, by values.
* `Blend.exists_apply`: Both steps, by their directions.
* `Adjustment.exists_factors`: The factors of given knobs, and their values.
* `Adjustment.exists_blend`: Their directions.
-/

namespace Darkroom

open Binary

namespace Blend

/-- The values of both factors. A step that is left out counts as one that changes nothing. -/
structure HasFactors (b : Blend) (c w : ℚ) : Prop where
  scale : (b.scale.getD 1).Denotes c
  vibrance : (b.vibrance.getD 0).Denotes w

/-- Both factors are finite; a step that is left out has none. -/
structure IsFinite (b : Blend) : Prop where
  scale : ∀ factor ∈ b.scale, factor.isFinite = true
  vibrance : ∀ factor ∈ b.vibrance, factor.isFinite = true

/-- The factors of knobs that are not below zero. -/
structure Raises (b : Blend) : Prop where
  scale : ∀ factor ∈ b.scale, (1 : Single) ≤ factor
  vibrance : ∀ factor ∈ b.vibrance, (0 : Single) ≤ factor

/-- The factors of knobs that are not above zero. -/
structure Lowers (b : Blend) : Prop where
  scale : ∀ factor ∈ b.scale, factor ≤ (1 : Single)
  vibrance : ∀ factor ∈ b.vibrance, factor ≤ (0 : Single)

/-- What is true of the saturation `v` that the factors make of `s`. -/
structure Takes (b : Blend) (s v : ℚ) : Prop where
  nonneg : 0 ≤ v
  le_one : v ≤ 1
  zero : s = 0 → v = 0
  raised : b.Raises → s ≤ v
  lowered : b.Lowers → v ≤ s

variable {b : Blend} {x : Single} {s c w : ℚ}

/-- What is left of a saturation after the first step. -/
def scaled (b : Blend) (x : Single) : Single :=
  match b.scale with
  | none => x
  | some factor => clampUnit (x * factor)

theorem apply_eq : b.apply x = match b.vibrance with
    | none => b.scaled x
    | some factor => clampUnit (b.scaled x * (1 + factor * (1 - b.scaled x))) := rfl

namespace HasFactors

variable (h : b.HasFactors c w)
include h

/-- The first step, by values. -/
theorem denotes_scaled (hx : x.Denotes s) (hs : IsShare s) : (b.scaled x).Denotes (stepped c s) := by
  have hc := h.scale
  unfold scaled
  cases hscale : b.scale with
  | none =>
    rw [hscale] at hc
    rwa [hc.unique denotes_one, stepped_one hs]
  | some factor =>
    rw [hscale] at hc
    exact denotes_clampUnit_mul hx hs hc

/-- Both steps, by values. -/
theorem denotes_apply (hx : x.Denotes s) (hs : IsShare s) : (b.apply x).Denotes (blended c w s) := by
  have hfirst := h.denotes_scaled hx hs
  have hw := h.vibrance
  rw [apply_eq]
  cases hvibrance : b.vibrance with
  | none =>
    rw [hvibrance] at hw
    rwa [hw.unique denotes_ofNat_zero, blended_zero]
  | some factor =>
    rw [hvibrance] at hw
    have hshare := isShare_stepped c s
    exact denotes_clampUnit_mul hfirst hshare (denotes_weighted hfirst hshare hw)

theorem scale_of_mem {factor : Single} (hmem : factor ∈ b.scale) : factor.Denotes c := by
  have hc := h.scale
  rwa [hmem] at hc

theorem vibrance_of_mem {factor : Single} (hmem : factor ∈ b.vibrance) : factor.Denotes w := by
  have hw := h.vibrance
  rwa [hmem] at hw

theorem isFinite : b.IsFinite where
  scale _ hmem := (h.scale_of_mem hmem).1
  vibrance _ hmem := (h.vibrance_of_mem hmem).1

theorem raises (hc : 1 ≤ c) (hw : 0 ≤ w) : b.Raises where
  scale _ hmem := (denotes_one.le_iff (h.scale_of_mem hmem)).mpr hc
  vibrance _ hmem := (denotes_ofNat_zero.le_iff (h.vibrance_of_mem hmem)).mpr hw

theorem lowers (hc : c ≤ 1) (hw : w ≤ 0) : b.Lowers where
  scale _ hmem := ((h.scale_of_mem hmem).le_iff denotes_one).mpr hc
  vibrance _ hmem := ((h.vibrance_of_mem hmem).le_iff denotes_ofNat_zero).mpr hw

end HasFactors

/-- A factor that may be left out has a value, and lies on the same side of what stands for it then
    as the value does. -/
theorem exists_denotes_getD {factor? : Option Single} {d : Single} {r : ℚ} (hd : d.Denotes r)
    (hfinite : ∀ factor ∈ factor?, factor.isFinite = true) :
    ∃ c, (factor?.getD d).Denotes c ∧ ((∀ factor ∈ factor?, d ≤ factor) → r ≤ c) ∧
      ((∀ factor ∈ factor?, factor ≤ d) → c ≤ r) := by
  cases factor? with
  | none => exact ⟨r, hd, fun _ => le_rfl, fun _ => le_rfl⟩
  | some factor =>
    rcases exists_denotes_of_isFinite (hfinite factor rfl) with ⟨c, hc⟩
    exact ⟨c, hc, fun h => (hd.le_iff hc).mp (h factor rfl),
      fun h => (hc.le_iff hd).mp (h factor rfl)⟩

/-- Finite factors have values, which lie on the same side of one and of zero as the factors. -/
theorem IsFinite.exists_factors (hb : b.IsFinite) :
    ∃ c w, b.HasFactors c w ∧ (b.Raises → 1 ≤ c ∧ 0 ≤ w) ∧ (b.Lowers → c ≤ 1 ∧ w ≤ 0) := by
  rcases exists_denotes_getD denotes_one hb.scale with ⟨c, hc, hcup, hcdown⟩
  rcases exists_denotes_getD denotes_ofNat_zero hb.vibrance with ⟨w, hw, hwup, hwdown⟩
  exact ⟨c, w, ⟨hc, hw⟩, fun h => ⟨hcup h.scale, hwup h.vibrance⟩,
    fun h => ⟨hcdown h.scale, hwdown h.vibrance⟩⟩

/-- What both steps make of a saturation. -/
theorem exists_apply (hb : b.IsFinite) (hx : x.Denotes s) (h0 : 0 ≤ s) (h1 : s ≤ 1) :
    ∃ v, (b.apply x).Denotes v ∧ b.Takes s v := by
  rcases hb.exists_factors with ⟨c, w, hfactors, hup, hdown⟩
  have hs : IsShare s := ⟨hx.representable, h0, h1⟩
  refine ⟨blended c w s, hfactors.denotes_apply hx hs, ?_⟩
  exact {
    nonneg := (isShare_blended c w s).nonneg
    le_one := (isShare_blended c w s).le_one
    zero := fun hzero => blended_of_stepped w (hzero ▸ stepped_zero c)
    raised := fun h => le_blended hs (hup h).1 (hup h).2
    lowered := fun h => blended_le hs (hdown h).1 (hdown h).2 }

end Blend

namespace Binary

variable {f g : BinaryFormat}

theorem isFinite_of_convert {x : Binary f} (h : (x.convert : Binary g).isFinite = true) :
    x.isFinite = true := by
  cases x with
  | nan => exact h
  | infinite s => exact h
  | finite s m e hc => rfl

theorem isFinite_of_add {x y : Binary f} (hx : x.isFinite = true) (h : (x + y).isFinite = true) :
    y.isFinite = true := by
  cases x with
  | nan => exact absurd hx Bool.false_ne_true
  | infinite s => exact absurd hx Bool.false_ne_true
  | finite s m e hc =>
    cases y with
    | nan => exact h
    | infinite t => exact h
    | finite t n d hd => rfl

end Binary

namespace Adjustment

/-- Both knobs stand for finite factors: one more than the first, and the second, as numbers of 24
    bits. -/
structure IsFinite (a : Adjustment) : Prop where
  saturation : ∃ s, a.saturation.toDouble = .ok s ∧
    (Binary.convert ((1 : Double) + s) : Single).isFinite = true
  vibrance : ∃ v, a.vibrance.toDouble = .ok v ∧ (v.convert : Single).isFinite = true

/-- The value of the first factor of a knob with the value `p`. -/
def scaleValue (p : ℚ) : ℚ := binary32.round (binary64.round (1 + binary64.round p))

/-- The value of the second factor of a knob with the value `q`. -/
def vibranceValue (q : ℚ) : ℚ := binary32.round (binary64.round q)

theorem scaleValue_mono : Monotone scaleValue := fun _ _ h =>
  BinaryFormat.round_mono (BinaryFormat.round_mono
    (add_le_add_right (BinaryFormat.round_mono h) 1))

theorem vibranceValue_mono : Monotone vibranceValue := fun _ _ h =>
  BinaryFormat.round_mono (BinaryFormat.round_mono h)

/-- One more than a real number is a real number, however large this is. -/
theorem denotes_one_add {x : Double} {p : ℚ} (hx : x.Denotes p) :
    ((1 : Double) + x).Denotes (binary64.round (1 + p)) :=
  hx.one_add denotes_one_double (by decide)

/-- A knob at zero has the first factor one, and the second factor zero. -/
theorem scaleValue_zero : scaleValue 0 = 1 := by
  rw [scaleValue, BinaryFormat.round_zero, add_zero, denotes_one_double.round_eq.1,
    denotes_one.round_eq.1]

theorem vibranceValue_zero : vibranceValue 0 = 0 := by
  rw [vibranceValue, BinaryFormat.round_zero, BinaryFormat.round_zero]

variable {a : Adjustment} {p q : ℚ}

theorem one_le_scaleValue (h : 0 ≤ p) : 1 ≤ scaleValue p := by
  rw [← scaleValue_zero]
  exact scaleValue_mono h

theorem scaleValue_le_one (h : p ≤ 0) : scaleValue p ≤ 1 := by
  rw [← scaleValue_zero]
  exact scaleValue_mono h

theorem vibranceValue_nonneg (h : 0 ≤ q) : 0 ≤ vibranceValue q := by
  rw [← vibranceValue_zero]
  exact vibranceValue_mono h

theorem vibranceValue_nonpos (h : q ≤ 0) : vibranceValue q ≤ 0 := by
  rw [← vibranceValue_zero]
  exact vibranceValue_mono h

theorem denotes_scale {n : Number} {x : Double} (hp : n.Denotes p) (h : n.toDouble = .ok x)
    (hfinite : (Binary.convert ((1 : Double) + x) : Single).isFinite = true) :
    (Binary.convert ((1 : Double) + x) : Single).Denotes (scaleValue p) := by
  have hx := hp.toDouble h (isFinite_of_add denotes_one_double.1 (isFinite_of_convert hfinite))
  exact (denotes_one_add hx).convert_of_isFinite hfinite

theorem denotes_vibrance {n : Number} {x : Double} (hq : n.Denotes q) (h : n.toDouble = .ok x)
    (hfinite : (x.convert : Single).isFinite = true) :
    (x.convert : Single).Denotes (vibranceValue q) :=
  (hq.toDouble h (isFinite_of_convert hfinite)).convert_of_isFinite hfinite

/-- Knobs that stand for finite factors have values. -/
theorem IsFinite.exists_values (ha : a.IsFinite) :
    ∃ p q, a.saturation.Denotes p ∧ a.vibrance.Denotes q := by
  rcases ha.saturation with ⟨s, hs, hscale⟩
  rcases ha.vibrance with ⟨v, hv, hvibrance⟩
  rcases Number.exists_denotes hs (isFinite_of_add denotes_one_double.1
    (isFinite_of_convert hscale)) with ⟨p, hp⟩
  rcases Number.exists_denotes hv (isFinite_of_convert hvibrance) with ⟨q, hq⟩
  exact ⟨p, q, hp, hq⟩

/-- The factors of given knobs, and their values. -/
theorem exists_factors (ha : a.IsFinite) (hp : a.saturation.Denotes p)
    (hq : a.vibrance.Denotes q) :
    ∃ blend, a.blend = .ok blend ∧ blend.HasFactors (scaleValue p) (vibranceValue q) := by
  rcases ha.saturation with ⟨s, hs, hscale⟩
  rcases ha.vibrance with ⟨v, hv, hvibrance⟩
  -- Each step has the factor that its knob stands for, or none.
  have hblend : a.blend = .ok
      ⟨if a.saturation.isZero then none else some (Binary.convert ((1 : Double) + s)),
        if a.vibrance.isZero then none else some v.convert⟩ := by
    unfold blend scale vibranceFactor
    rw [hs, hv]
    split <;> split <;> rfl
  refine ⟨_, hblend, ?_, ?_⟩
  · dsimp only
    split_ifs with hzero
    · rw [hp.isZero_iff.mp hzero, scaleValue_zero]
      exact denotes_one
    · exact denotes_scale hp hs hscale
  · dsimp only
    split_ifs with hzero
    · rw [hq.isZero_iff.mp hzero, vibranceValue_zero]
      exact denotes_ofNat_zero
    · exact denotes_vibrance hq hv hvibrance

theorem exists_blend (ha : a.IsFinite) :
    ∃ blend, a.blend = .ok blend ∧ blend.IsFinite ∧
      (a.saturation.isAtLeastZero = true → a.vibrance.isAtLeastZero = true → blend.Raises) ∧
      (a.saturation.isAtMostZero = true → a.vibrance.isAtMostZero = true → blend.Lowers) := by
  rcases ha.exists_values with ⟨p, q, hp, hq⟩
  rcases exists_factors ha hp hq with ⟨blend, hblend, hfactors⟩
  refine ⟨blend, hblend, hfactors.isFinite, fun hsat hvib => ?_, fun hsat hvib => ?_⟩
  · rw [hp.isAtLeastZero_iff] at hsat
    rw [hq.isAtLeastZero_iff] at hvib
    exact hfactors.raises (one_le_scaleValue hsat) (vibranceValue_nonneg hvib)
  · rw [hp.isAtMostZero_iff] at hsat
    rw [hq.isAtMostZero_iff] at hvib
    exact hfactors.lowers (scaleValue_le_one hsat) (vibranceValue_nonpos hvib)

end Adjustment

end Darkroom
