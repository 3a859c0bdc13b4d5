import Darkroom.Proofs.Settings.Casting
import Darkroom.Samples.Basic
import Mathlib.Algebra.BigOperators.Ring.Finset
import Mathlib.Algebra.Order.Ring.Int

/-!
# Shapes that are Possible

When an array takes another shape.

The product of the new sizes must be the number of samples. But that is not all, because an array
without samples may have any sizes beside a zero: the others must still leave a product, with the
bytes of a sample, that a machine word holds. A size below zero asks for what the others leave, and
leaves no choice where their product is the number of samples already.

## Main definitions

* `Samples.IsPossible`: Sizes that an array can have.

## Theorems

* `Samples.isPossible_of_pos`: Sizes of an array that has samples.
* `Samples.resolveShape_eq_ok`: Possible sizes with the right product are taken.
* `Samples.isPossible_of_resolveShape`: Sizes that are taken are possible.
* `Samples.resolveShape_of_neg`: Sizes with the right product are refused if one is negative.
* `Samples.resolveShape_fails`: Whatever is refused is a bad value.
-/

namespace Darkroom

namespace Samples

/-- Sizes that an array of samples can have: without the zeros among them, and with the bytes of a
    sample, they have a product that a machine word holds. -/
def IsPossible (itemBytes : ℕ) (sizes : List ℕ) : Prop :=
  itemBytes * volume (sizes.filter (0 < ·)) < machineLimit.toNat

instance (itemBytes : ℕ) (sizes : List ℕ) : Decidable (IsPossible itemBytes sizes) :=
  inferInstanceAs (Decidable (_ < _))

/-- One more factor of a product that must stay within a machine word. -/
def boundedMul (product : ℕ) (size : ℤ) : Option ℕ :=
  let next := product * size.toNat
  if next < machineLimit.toNat then some next else none

theorem knownVolume?_eq (sizes : List ℤ) :
    knownVolume? sizes = (sizes.filter (0 ≤ ·)).foldlM boundedMul 1 := rfl

theorem volume_cons (size : ℕ) (sizes : List ℕ) : volume (size :: sizes) = size * volume sizes :=
  rfl

theorem volume_filter_pos (sizes : List ℕ) : 0 < volume (sizes.filter (0 < ·)) := by
  induction sizes with
  | nil => decide
  | cons size sizes ih =>
    rw [List.filter_cons]
    split_ifs with hpos
    · exact Nat.mul_pos (of_decide_eq_true hpos) ih
    · exact ih

/-- A product stays within a machine word if its factors without the zeros do. -/
theorem foldlM_boundedMul_of_lt {sizes : List ℕ} {product : ℕ}
    (h : product * volume (sizes.filter (0 < ·)) < machineLimit.toNat) :
    (sizes.map Nat.cast).foldlM boundedMul product = some (product * volume sizes) := by
  induction sizes generalizing product with
  | nil => simp [volume]
  | cons size sizes ih =>
    have hrest := volume_filter_pos sizes
    have hnext : product * size * volume (sizes.filter (0 < ·)) < machineLimit.toNat := by
      rw [List.filter_cons] at h
      split_ifs at h with hpos
      · rwa [volume_cons, ← Nat.mul_assoc] at h
      · -- After a zero every product is zero.
        rw [Nat.eq_zero_of_not_pos (fun hsize => hpos (decide_eq_true hsize)), Nat.mul_zero,
          Nat.zero_mul]
        decide
    have hlt : product * size < machineLimit.toNat :=
      lt_of_le_of_lt (Nat.le_mul_of_pos_right _ hrest) hnext
    have hstep : boundedMul product (size : ℤ) = some (product * size) := if_pos hlt
    rw [List.map_cons, List.foldlM_cons, hstep, volume_cons, ← Nat.mul_assoc]
    exact ih hnext

/-- A product that stays within a machine word is the product of its factors. -/
theorem foldlM_boundedMul_eq_some {sizes : List ℕ} {product v : ℕ}
    (h : (sizes.map Nat.cast).foldlM boundedMul product = some v)
    (hproduct : product < machineLimit.toNat) :
    v = product * volume sizes ∧ v < machineLimit.toNat := by
  induction sizes generalizing product with
  | nil =>
    cases h
    exact ⟨(mul_one _).symm, hproduct⟩
  | cons size sizes ih =>
    rw [List.map_cons, List.foldlM_cons] at h
    by_cases hlt : product * size < machineLimit.toNat
    · have hstep : boundedMul product (size : ℤ) = some (product * size) := if_pos hlt
      rw [hstep] at h
      rw [volume_cons, ← Nat.mul_assoc]
      exact ih h hlt
    · have hstep : boundedMul product (size : ℤ) = none := if_neg hlt
      rw [hstep] at h
      cases h

theorem knownVolume?_natCast (sizes : List ℕ) :
    knownVolume? (sizes.map Nat.cast) = (sizes.map Nat.cast).foldlM boundedMul 1 := by
  rw [knownVolume?_eq, List.filter_eq_self.mpr]
  simp

theorem filter_neg_natCast (sizes : List ℕ) :
    (sizes.map Nat.cast : List ℤ).filter (· < 0) = [] := by
  rw [List.filter_eq_nil_iff]
  simp

theorem filter_pos_natCast (sizes : List ℕ) :
    (sizes.map Nat.cast : List ℤ).filter (0 < ·) = (sizes.filter (0 < ·)).map Nat.cast := by
  rw [List.filter_map]
  congr 1
  exact List.filter_congr fun size _ => by simp

theorem toNat_natCast (sizes : List ℕ) :
    (sizes.map Nat.cast : List ℤ).map Int.toNat = sizes := by
  rw [List.map_map]
  exact List.map_id sizes

theorem volume_eq_prod (sizes : List ℕ) : volume sizes = sizes.prod := List.prod_eq_foldr.symm

/-- Sizes that an array can have are numbers of a machine word. -/
theorem IsPossible.lt {itemBytes : ℕ} {sizes : List ℕ} (h : IsPossible itemBytes sizes)
    (hbytes : 0 < itemBytes) {size : ℕ} (hsize : size ∈ sizes) : size < machineLimit.toNat := by
  rcases Nat.eq_zero_or_pos size with rfl | hpos
  · decide
  have hmem : size ∈ sizes.filter (0 < ·) := List.mem_filter.mpr ⟨hsize, decide_eq_true hpos⟩
  have hle := Nat.le_of_dvd (volume_filter_pos sizes) (volume_eq_prod _ ▸ List.dvd_prod hmem)
  exact lt_of_le_of_lt (hle.trans (Nat.le_mul_of_pos_left _ hbytes)) h

/-- Of sizes without a zero, only the number of bytes matters. -/
theorem isPossible_of_pos {itemBytes : ℕ} {sizes : List ℕ} (hpos : 0 < volume sizes)
    (h : itemBytes * volume sizes < machineLimit.toNat) : IsPossible itemBytes sizes := by
  have hfilter : sizes.filter (0 < ·) = sizes := List.filter_eq_self.mpr fun size hsize => by
    refine decide_eq_true (Nat.pos_of_ne_zero ?_)
    rintro rfl
    rw [volume_eq_prod, List.prod_eq_zero hsize] at hpos
    exact absurd hpos (lt_irrefl 0)
  rwa [IsPossible, hfilter]

/-- The product that is asked for after the number of samples has been found right. -/
theorem knownVolume?_cons (itemBytes : ℕ) (sizes : List ℕ) :
    knownVolume? (itemBytes :: (sizes.map Nat.cast).filter (0 < ·)) =
      ((itemBytes :: sizes.filter (0 < ·)).map Nat.cast).foldlM boundedMul 1 := by
  rw [filter_pos_natCast, ← List.map_cons, knownVolume?_natCast]

/-- Possible sizes with the right product are taken. -/
theorem resolveShape_eq_ok {count itemBytes : ℕ} {sizes : List ℕ} (hbytes : 0 < itemBytes)
    (hcount : volume sizes = count) (h : IsPossible itemBytes sizes) :
    resolveShape count itemBytes (sizes.map Nat.cast) = .ok sizes := by
  have hany : ((sizes.map Nat.cast : List ℤ).any
      fun size => machineLimit ≤ size || size < -machineLimit) = false := by
    rw [List.any_map, List.any_eq_false]
    intro size hsize
    have hlt := h.lt hbytes hsize
    have hlimit : (0 : ℤ) < machineLimit := by decide
    simp only [Function.comp_apply, Bool.or_eq_true, decide_eq_true_eq]
    omega
  have hknown : knownVolume? (sizes.map Nat.cast) = some count := by
    rw [knownVolume?_natCast, foldlM_boundedMul_of_lt, Nat.one_mul, hcount]
    rw [Nat.one_mul]
    exact lt_of_le_of_lt (Nat.le_mul_of_pos_left _ hbytes) h
  have hall : knownVolume? (itemBytes :: (sizes.map Nat.cast).filter (0 < ·)) =
      some (1 * volume (itemBytes :: sizes.filter (0 < ·))) := by
    rw [knownVolume?_cons, foldlM_boundedMul_of_lt]
    rw [List.filter_cons, if_pos (decide_eq_true hbytes), List.filter_filter, Nat.one_mul]
    simp only [Bool.and_self]
    exact h
  unfold resolveShape
  simp only [hany, filter_neg_natCast, hknown, hall, toNat_natCast]
  simp

/-- Sizes that are taken are possible. -/
theorem isPossible_of_resolveShape {count itemBytes : ℕ} {sizes shape : List ℕ}
    (h : resolveShape count itemBytes (sizes.map Nat.cast) = .ok shape) :
    IsPossible itemBytes sizes := by
  unfold resolveShape at h
  simp only [filter_neg_natCast] at h
  split at h
  · cases h
  split at h
  · split_ifs at h
    split at h
    · rename_i v hall
      rw [knownVolume?_cons] at hall
      rcases foldlM_boundedMul_eq_some hall (by decide) with ⟨hv, hlt⟩
      rwa [hv, Nat.one_mul, volume_cons] at hlt
    · cases h
  · cases h

theorem prod_eq_filter_mul (sizes : List ℤ) :
    sizes.prod = (sizes.filter (· < 0)).prod * (sizes.filter (0 ≤ ·)).prod := by
  induction sizes with
  | nil => rfl
  | cons size sizes ih =>
    rcases lt_or_ge size 0 with hneg | hnonneg
    · rw [List.filter_cons_of_pos (by simpa using hneg),
        List.filter_cons_of_neg (by simpa using hneg), List.prod_cons, List.prod_cons, ih,
        mul_assoc]
    · rw [List.filter_cons_of_neg (by simpa using hnonneg),
        List.filter_cons_of_pos (by simpa using hnonneg), List.prod_cons, List.prod_cons, ih,
        mul_left_comm]

/-- What is found of the sizes that are given is their product. -/
theorem knownVolume?_eq_some {sizes : List ℤ} {v : ℕ} (h : knownVolume? sizes = some v) :
    (v : ℤ) = (sizes.filter (0 ≤ ·)).prod := by
  have hcast : ((sizes.filter (0 ≤ ·)).map Int.toNat).map Nat.cast = sizes.filter (0 ≤ ·) := by
    rw [List.map_map]
    refine (List.map_congr_left fun size hsize => ?_).trans (List.map_id _)
    have hnonneg := of_decide_eq_true (List.mem_filter.mp hsize).2
    simp only [Function.comp_apply, id_eq]
    omega
  rw [knownVolume?_eq, ← hcast] at h
  rcases foldlM_boundedMul_eq_some h (by decide) with ⟨rfl, -⟩
  rw [Nat.one_mul, volume_eq_prod, Nat.cast_list_prod, hcast]

/-- Sizes with the right product are refused if one is negative: it has no choice, since the others
    have to make zero. -/
theorem resolveShape_of_neg {count itemBytes : ℕ} {sizes : List ℤ} {shape : List ℕ}
    (hprod : sizes.prod = count) (hneg : ∃ size ∈ sizes, size < 0) :
    resolveShape count itemBytes sizes ≠ .ok shape := by
  rcases hneg with ⟨size, hsize, hneg⟩
  have hmem : size ∈ sizes.filter (· < 0) := List.mem_filter.mpr ⟨hsize, decide_eq_true hneg⟩
  rw [prod_eq_filter_mul] at hprod
  unfold resolveShape
  split_ifs
  · exact nofun
  cases hfilter : sizes.filter (· < 0) with
  | nil => exact absurd (hfilter ▸ hmem) (List.not_mem_nil)
  | cons n rest =>
    cases rest with
    | cons _ _ => exact nofun
    | nil =>
      simp only
      cases hknown : knownVolume? sizes with
      | none => exact nofun
      | some known =>
        have hn : n < 0 := by
          have hn : n ∈ sizes.filter (· < 0) := hfilter ▸ List.mem_cons_self
          exact of_decide_eq_true (List.mem_filter.mp hn).2
        rw [hfilter, List.prod_singleton, ← knownVolume?_eq_some hknown] at hprod
        have hzero : known = 0 := by
          by_contra hpos
          have hlt : n * (known : ℤ) < 0 := mul_neg_of_neg_of_pos hn (by omega)
          omega
        simp only [hzero, decide_true, Bool.true_or, if_true]
        exact nofun

/-- Whatever is refused is a bad value. -/
theorem resolveShape_fails (count itemBytes : ℕ) (sizes : List ℤ) :
    FailsOnly (·.kind = .badValue) (resolveShape count itemBytes sizes) := by
  unfold resolveShape
  split_ifs
  · exact failsOnly_error rfl
  simp only
  repeat' split
  all_goals first | exact failsOnly_error rfl | exact failsOnly_ok _

end Samples

end Darkroom
