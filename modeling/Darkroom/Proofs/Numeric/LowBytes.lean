import Darkroom.Numeric.LowBytes
import Mathlib.Algebra.BigOperators.Ring.Finset
import Mathlib.Tactic.Ring

/-!
# Numbers as Bytes and Back

So many bytes hold the numbers below a power of 256, each number once.

## Theorems

* `ofLowBytes_lt`: Bytes make up less than they have room for.
* `ofLowBytes_eq_sum`: The number that bytes make up, byte by byte.
* `lowBytes_ofLowBytes`, `ofLowBytes_lowBytes`: Both ways are inverse.
-/

namespace Darkroom

/-- Bytes make up less than they have room for. -/
theorem ofLowBytes_lt (bytes : List UInt8) : ofLowBytes bytes < 256 ^ bytes.length := by
  induction bytes with
  | nil => decide
  | cons b rest ih =>
    have hb : b.toNat < 256 := b.toNat_lt
    unfold ofLowBytes
    rw [List.length_cons, pow_succ']
    omega

/-- The number that bytes make up: each byte counts 256 times as much as the one before. -/
theorem ofLowBytes_eq_sum (bytes : List UInt8) :
    ofLowBytes bytes = ∑ i ∈ Finset.range bytes.length, (bytes.getD i 0).toNat * 256 ^ i := by
  induction bytes with
  | nil => rfl
  | cons b rest ih =>
    rw [List.length_cons, Finset.sum_range_succ', ofLowBytes, ih, Finset.mul_sum]
    simp only [List.getD_cons_succ, List.getD_cons_zero, pow_succ, pow_zero, mul_one]
    rw [add_comm]
    exact congrArg (· + b.toNat) (Finset.sum_congr rfl fun i _ => by ring)

theorem length_lowBytes (count n : ℕ) : (lowBytes count n).length = count := by
  induction count generalizing n with
  | zero => rfl
  | succ count ih => rw [lowBytes, List.length_cons, ih]

/-- Bytes are found again from the number that they make up. -/
theorem lowBytes_ofLowBytes (bytes : List UInt8) :
    lowBytes bytes.length (ofLowBytes bytes) = bytes := by
  induction bytes with
  | nil => rfl
  | cons b rest ih =>
    have hb : b.toNat < 256 := b.toNat_lt
    have hfirst : UInt8.ofNat (b.toNat + 256 * ofLowBytes rest) = b := by
      refine UInt8.toNat_inj.mp ?_
      rw [UInt8.toNat_ofNat']
      omega
    have hrest : (b.toNat + 256 * ofLowBytes rest) / 256 = ofLowBytes rest := by omega
    rw [List.length_cons, lowBytes, ofLowBytes, hfirst, hrest, ih]

/-- A number that some bytes have room for is found again from them. -/
theorem ofLowBytes_lowBytes {count n : ℕ} (h : n < 256 ^ count) :
    ofLowBytes (lowBytes count n) = n := by
  induction count generalizing n with
  | zero => exact (Nat.lt_one_iff.mp h).symm
  | succ count ih =>
    rw [pow_succ'] at h
    rw [lowBytes, ofLowBytes, ih (by omega), UInt8.toNat_ofNat']
    omega

end Darkroom
