import Darkroom.Camera.Exif
import Darkroom.Proofs.Files.Steps
import Darkroom.Proofs.Numeric.Magnitude

/-!
# Numbers of Tags

When the value of a tag or of a report can be read as a number.

What is no number is read as none, and that is no failure. A whole number may be too large, though:
when it rounds to more than the greatest real number, it is refused, whoever has written it. That is
the only way in which a plain value fails to be read, and a list is read as its first value.

## Main definitions

* `FitsReal`: A whole number that is not too large for a real one.
* `Value.firstPart`: The part of a value that is read as a number.
* `TagValue.ReadsNumber`: A value whose number is read without a failure.

## Theorems

* `exists_realOfWhole_iff`, `fitsReal_of_abs_le`: Whole numbers that are not too large.
* `TagValue.readsNumber_ofValue_iff`: When a value is read.
* `TagValue.readsNumber_ratio`: Fractions.
-/

namespace Darkroom

open Binary BinaryFormat

/-- A whole number that rounds to no more than the greatest real number. -/
def FitsReal (n : ℤ) : Prop := |binary64.round n| ≤ binary64.greatest

theorem exists_realOfWhole_iff (n : ℤ) : (∃ x, realOfWhole n = .ok x) ↔ FitsReal n := by
  unfold realOfWhole
  by_cases hfinite : (Binary.ofInt n : Double).isFinite = true
  · refine iff_of_true ⟨_, if_pos hfinite⟩ ?_
    exact (ofInt_denotes_of_isFinite hfinite).abs_le_greatest
  · refine iff_of_false ?_ fun hfits => hfinite (ofInt_denotes hfits).1
    rw [if_neg hfinite]
    exact not_exists_ok _

/-- What is refused as a real number is too large for one. -/
theorem realOfWhole_eq_error {n : ℤ} (h : ¬FitsReal n) :
    realOfWhole n = .error .tooLargeForReal := by
  unfold realOfWhole
  refine if_neg fun hfinite => h ?_
  exact (ofInt_denotes_of_isFinite hfinite).abs_le_greatest

/-- Whole numbers of no more bits than a real number has are not too large. -/
theorem fitsReal_of_abs_le {n : ℤ} (h : |n| ≤ 2 ^ 53) : FitsReal n := by
  have hrepresentable : binary64.Representable n := representable_intCast h (by decide)
  unfold FitsReal
  rw [round_of_representable hrepresentable]
  have hcast : |(n : ℚ)| ≤ 2 ^ 53 := by exact_mod_cast h
  refine hcast.trans ?_
  -- The greatest number has 53 bits as well, but ends far above them.
  have hplace : (2 : ℚ) ^ (1 : ℤ) ≤ 2 ^ binary64.maxExponent := two_zpow_le (by decide)
  unfold greatest
  calc (2 : ℚ) ^ 53 ≤ (2 ^ 53 - 1) * 2 ^ (1 : ℤ) := by norm_num
    _ ≤ (2 ^ 53 - 1) * 2 ^ binary64.maxExponent :=
        mul_le_mul_of_nonneg_left hplace (by norm_num)

/-- A value that is not too large a number. -/
def Value.FitsReal (value : Value) : Prop := ∀ n, value = .whole n → Darkroom.FitsReal n

/-- What is read of a value as a number: of a list its first part. -/
def Value.firstPart : Value → Value
  | .items (part :: _) | .tuple (part :: _) => part
  | value => value

namespace TagValue

/-- What is no number is read as none, unless it is too large for one. -/
theorem exists_realOr?_iff_toReal (value : Value) :
    (∃ x, realOr? value = .ok x) ↔ value.toReal ≠ .error .tooLargeForReal := by
  unfold realOr?
  cases value.toReal with
  | ok x => exact iff_of_true ⟨some x, rfl⟩ nofun
  | error failure =>
    by_cases hlarge : failure = .tooLargeForReal
    · rw [hlarge]
      exact iff_of_false (not_exists_ok _) fun hne => hne rfl
    · refine iff_of_true ⟨none, ?_⟩ fun herror => hlarge (Except.error.inj herror)
      -- Of the failures, one is handed on, and this is another.
      split
      · next hok => cases hok
      · next herror => exact absurd (Except.error.inj herror) hlarge
      · rfl

theorem realOr?_eq_error {value : Value} {failure : Failure}
    (h : realOr? value = .error failure) : failure = .tooLargeForReal := by
  unfold realOr? at h
  split at h
  · cases h
  · exact (Except.error.inj h).symm
  · cases h

/-- Only a whole number is too large. -/
theorem toReal_eq_tooLarge_iff (value : Value) :
    value.toReal = .error .tooLargeForReal ↔ ∃ n, value = .whole n ∧ ¬Darkroom.FitsReal n := by
  cases value with
  | whole n =>
    simp only [Value.whole.injEq, exists_eq_left']
    show realOfWhole n = .error .tooLargeForReal ↔ ¬Darkroom.FitsReal n
    refine ⟨fun herror hfits => ?_, realOfWhole_eq_error⟩
    rcases (exists_realOfWhole_iff n).mpr hfits with ⟨x, hx⟩
    cases hx.symm.trans herror
  | text s =>
    refine iff_of_false ?_ nofun
    rw [Value.toReal]
    split <;> nofun
  | bytes data =>
    refine iff_of_false ?_ nofun
    rw [Value.toReal]
    split <;> nofun
  | _ => exact iff_of_false nofun nofun

/-- Only a whole number that is too large is refused. -/
theorem exists_realOr?_iff (value : Value) : (∃ x, realOr? value = .ok x) ↔ value.FitsReal := by
  rw [exists_realOr?_iff_toReal, ne_eq, toReal_eq_tooLarge_iff]
  unfold Value.FitsReal
  simp only [not_exists, not_and, not_not]

/-- A value is read as its first part. -/
theorem number?_ofValue (value : Value) : (ofValue value).number? = realOr? value.firstPart := by
  cases value with
  | items values => cases values <;> rfl
  | tuple values => cases values <;> rfl
  | _ => rfl

/-- The number of a value is read, or it is found to have none. -/
def ReadsNumber (value : TagValue) : Prop := ∃ x, value.number? = .ok x

theorem readsNumber_ofValue_iff (value : Value) :
    (ofValue value).ReadsNumber ↔ value.firstPart.FitsReal := by
  unfold ReadsNumber
  rw [number?_ofValue]
  exact exists_realOr?_iff _

theorem readsNumber_whole {n : ℤ} (h : Darkroom.FitsReal n) : (plain (.whole n)).ReadsNumber := by
  refine (readsNumber_ofValue_iff (.whole n)).mpr ?_
  rintro _ ⟨⟩
  exact h

/-- A fraction of numbers that are not too large is read. -/
theorem readsNumber_ratio {num den : ℤ} (hnum : Darkroom.FitsReal num)
    (hden : Darkroom.FitsReal den) : (ratio (.whole num) (.whole den)).ReadsNumber := by
  have hreal {n : ℤ} (hn : Darkroom.FitsReal n) : ∃ x, (Value.whole n).toReal = .ok x :=
    (exists_realOfWhole_iff n).mpr hn
  rcases hreal hnum with ⟨x, hx⟩
  rcases hreal hden with ⟨y, hy⟩
  show ∃ x, quotient (.whole num) (.whole den) = .ok x
  unfold quotient
  rw [hx, hy]
  -- Without a denominator, or with zero, there is no number, which is no failure.
  by_cases htrue : (Value.whole den).isTrue = true
  · rw [if_pos htrue]
    by_cases hzero : y.isZero = true
    · exact ⟨none, if_pos hzero⟩
    · exact ⟨some (x / y), if_neg hzero⟩
  · rw [if_neg htrue]
    exact ⟨none, rfl⟩

end TagValue

end Darkroom
