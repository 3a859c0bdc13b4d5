import Darkroom.Numeric.Number
import Darkroom.Proofs.Numeric.Magnitude

/-!
# Given Numbers

What becomes of a given number when an operation needs a real one.

A whole number is rounded, or refused when it is too large; a real number stays. Both are described
by the value that was given: what is worked with is the real number that the value rounds to. So the
order of what was given is the order of what is worked with, whichever kind the numbers are of.

## Main definitions

* `Number.isAtLeastZero`: Whether a number is zero or lies above.
* `Number.Denotes`: A given number has a value.

## Theorems

* `Number.toDouble_cases`: A number can only be too large for a real number.
* `Number.Denotes.toDouble`: The real number that a given one becomes.
* `Number.Denotes.exists_toDouble`: Which given numbers become one.
-/

namespace Darkroom

open Binary

namespace Number

theorem toDouble_whole {n : ℤ} (h : (Binary.ofInt n : Double).isFinite = true) :
    (whole n).toDouble = .ok (Binary.ofInt n) := if_pos h

theorem toDouble_whole_eq_ok {n : ℤ} {x : Double} (h : (whole n).toDouble = .ok x) :
    x = Binary.ofInt n := by
  unfold toDouble realOfWhole at h
  simp only at h
  split at h
  · cases h
    rfl
  · cases h

/-- A number can only be too large for a real number. -/
theorem toDouble_cases (n : Number) :
    (∃ x, n.toDouble = .ok x) ∨ n.toDouble = .error .tooLargeForReal := by
  cases n with
  | real x => exact Or.inl ⟨x, rfl⟩
  | whole n =>
    unfold toDouble realOfWhole
    simp only
    split
    · exact Or.inl ⟨_, rfl⟩
    · exact Or.inr rfl

/-- Whether a number is zero or lies above. Not-a-number lies nowhere. -/
def isAtLeastZero : Number → Bool
  | whole n => 0 ≤ n
  | real x => 0 ≤ x

end Number

namespace Binary

variable {f : BinaryFormat}

/-- What is finite has a value. -/
theorem exists_denotes_of_isFinite {x : Binary f} (h : x.isFinite = true) : ∃ q, x.Denotes q :=
  ⟨x.toRat, h, rfl⟩

end Binary

namespace Number

/-- A given number has a value. Infinities and not-a-number have none. -/
def Denotes : Number → ℚ → Prop
  | whole n, q => (n : ℚ) = q
  | real x, q => x.Denotes q

variable {n : Number} {q : ℚ}

theorem Denotes.isZero_iff (h : n.Denotes q) : n.isZero = true ↔ q = 0 := by
  cases n with
  | whole n =>
    cases h
    rw [isZero, decide_eq_true_iff, Int.cast_eq_zero]
  | real x => exact Binary.Denotes.isZero_iff h

theorem Denotes.isAtLeastZero_iff (h : n.Denotes q) : n.isAtLeastZero = true ↔ 0 ≤ q := by
  cases n with
  | whole n =>
    cases h
    rw [isAtLeastZero, decide_eq_true_iff, Int.cast_nonneg_iff]
  | real x =>
    rw [isAtLeastZero, decide_eq_true_iff]
    exact denotes_ofNat_zero.le_iff h

theorem Denotes.isAtMostZero_iff (h : n.Denotes q) : n.isAtMostZero = true ↔ q ≤ 0 := by
  cases n with
  | whole n =>
    cases h
    rw [isAtMostZero, decide_eq_true_iff, Int.cast_nonpos]
  | real x =>
    rw [isAtMostZero, decide_eq_true_iff]
    exact Binary.Denotes.le_iff h denotes_ofNat_zero

/-- The finite real number that a given one becomes is the one that its value rounds to. -/
theorem Denotes.toDouble {x : Double} (h : n.Denotes q) (hx : n.toDouble = .ok x)
    (hfinite : x.isFinite = true) : x.Denotes (binary64.round q) := by
  cases n with
  | whole n =>
    cases h
    rw [toDouble_whole_eq_ok hx] at hfinite ⊢
    exact ofInt_denotes_of_isFinite hfinite
  | real y =>
    cases hx
    rw [BinaryFormat.round_of_representable (Binary.Denotes.representable h)]
    exact h

/-- A number whose value does not round beyond the greatest real number becomes a finite one. -/
theorem Denotes.exists_toDouble (h : n.Denotes q)
    (hfit : |binary64.round q| ≤ binary64.greatest) :
    ∃ x, n.toDouble = .ok x ∧ x.Denotes (binary64.round q) := by
  cases n with
  | whole n =>
    cases h
    have hn := ofInt_denotes (f := binary64) hfit
    exact ⟨_, toDouble_whole hn.1, hn⟩
  | real x => exact ⟨x, rfl, h.toDouble rfl h.1⟩

/-- A number that becomes a finite real one has a value. -/
theorem exists_denotes {x : Double} (h : n.toDouble = .ok x) (hfinite : x.isFinite = true) :
    ∃ q, n.Denotes q := by
  cases n with
  | whole n => exact ⟨n, rfl⟩
  | real y =>
    cases h
    exact exists_denotes_of_isFinite hfinite

end Number

end Darkroom
