import Darkroom.Proofs.Tone.Factors

/-!
# Order of the Knobs

A saturation follows the sign and the size of the knobs.

The knobs are compared by the values that were given, whole or real, and no two of them need to be
of one kind. From a value to its factor there are two or three roundings, and each keeps the order.
A knob at zero leaves its step out, where a knob close to zero does not; but the factor of a step
that is left out is the one that zero would have had, so the order goes on across it.

A greater second knob never gives a smaller saturation, because the first step has then left the
same. A greater first knob does so where the second is at zero.

## Main definitions

* `Adjustment.Makes`: The saturation that the knobs make of another.

## Theorems

* `Adjustment.makes_blended`: It is the one that the values of the factors make.
* `Adjustment.follows_knobs`: Sign and size of the knobs, and the greatest saturation.
-/

namespace Darkroom

open Binary

namespace Adjustment

/-- The knobs make a number with the value `v` of a saturation. -/
def Makes (a : Adjustment) (x : Single) (v : ℚ) : Prop :=
  ∃ blend, a.blend = .ok blend ∧ (blend.apply x).Denotes v

variable {a : Adjustment} {p q s : ℚ} {x : Single}

/-- The saturation that the knobs make, by values. -/
theorem makes_blended (ha : a.IsFinite) (hp : a.saturation.Denotes p) (hq : a.vibrance.Denotes q)
    (hx : x.Denotes s) (hs : IsShare s) :
    a.Makes x (blended (scaleValue p) (vibranceValue q) s) := by
  rcases exists_factors ha hp hq with ⟨blend, hblend, hfactors⟩
  exact ⟨blend, hblend, hfactors.denotes_apply hx hs⟩

/-- A saturation follows its knobs. For knobs that stand for finite factors it does not sink if both
    are at zero or above, and does not rise if both are at zero or below. It does not sink when the
    second knob grows, nor, where the second is at zero, when the first one does. The greatest
    saturation is kept by every second knob, unless the first is below zero. -/
theorem follows_knobs (a : Adjustment) (ha : a.IsFinite) (p q : ℚ) (hp : a.saturation.Denotes p)
    (hq : a.vibrance.Denotes q) (x : Single) (s : ℚ) (hx : x.Denotes s) (h0 : 0 ≤ s)
    (h1 : s ≤ 1) :
    ∃ v, a.Makes x v ∧ (0 ≤ p → 0 ≤ q → s ≤ v) ∧ (p ≤ 0 → q ≤ 0 → v ≤ s) ∧
      (∀ (a' : Adjustment) (p' q' : ℚ), a'.IsFinite → a'.saturation.Denotes p' →
        a'.vibrance.Denotes q' →
          ∃ v', a'.Makes x v' ∧ (p = p' → q ≤ q' → v ≤ v') ∧
            (q = 0 → q' = 0 → p ≤ p' → v ≤ v')) ∧
      (s = 1 → 0 ≤ p → v = 1) := by
  have hs : IsShare s := ⟨hx.representable, h0, h1⟩
  refine ⟨_, makes_blended ha hp hq hx hs, fun hsat hvib => ?_, fun hsat hvib => ?_,
    fun a' p' q' ha' hp' hq' => ⟨_, makes_blended ha' hp' hq' hx hs, ?_, ?_⟩, ?_⟩
  · exact le_blended hs (one_le_scaleValue hsat) (vibranceValue_nonneg hvib)
  · exact blended_le hs (scaleValue_le_one hsat) (vibranceValue_nonpos hvib)
  · rintro rfl hle
    exact blended_mono _ _ (vibranceValue_mono hle)
  · -- Without a second step the first one is all there is.
    rintro rfl rfl hle
    rw [vibranceValue_zero, blended_zero, blended_zero]
    exact stepped_mono h0 (scaleValue_mono hle)
  · rintro rfl hsat
    exact blended_one _ (one_le_scaleValue hsat)

/-- A saturation of one half, and two pairs of knobs. -/
theorem follows_knobs_half :
    ∃ v, Makes ⟨.whole 1, .whole 1⟩ half v ∧ 1 / 2 ≤ v ∧
      ∃ v', Makes ⟨.whole 1, .whole 2⟩ half v' ∧ v ≤ v' := by
  rcases follows_knobs ⟨.whole 1, .whole 1⟩ ⟨⟨_, rfl, by decide⟩, ⟨_, rfl, by decide⟩⟩ 1 1
    Int.cast_one Int.cast_one half (1 / 2) denotes_half (by norm_num) (by norm_num) with
    ⟨v, hv, hup, -, hmono, -⟩
  rcases hmono ⟨.whole 1, .whole 2⟩ 1 2 ⟨⟨_, rfl, by decide⟩, ⟨_, rfl, by decide⟩⟩ Int.cast_one
    (by norm_num [Number.Denotes]) with ⟨v', hv', hle, -⟩
  exact ⟨v, hv, hup zero_le_one zero_le_one, v', hv', hle rfl (by norm_num)⟩

end Adjustment

end Darkroom
