import Darkroom.Samples.Basic
import Mathlib.Data.Nat.Basic

/-!
# Rows and Samples

Lists of rows that are equally long, laid out one after the other, numbers that a type of samples
has, and cells that fill a shape.

## Theorems

* `length_flatten_of_rows`: How long the rows are together.
* `getElem?_flatten_of_rows`: An index splits into the row and the place in it.
* `WholeType.wrap_eq`: A number of a type is kept.
* `Samples.match_ofCells?`: Cells that fill a shape are taken.
-/

namespace Darkroom

/-- A place in one of some rows is one of all places. -/
theorem rowIndex_lt {height width y x : ℕ} (hy : y < height) (hx : x < width) :
    y * width + x < height * width := by
  calc y * width + x < (y + 1) * width := by
        rw [Nat.succ_mul]
        exact Nat.add_lt_add_left hx _
    _ ≤ height * width := Nat.mul_le_mul_right _ hy

section

variable {α : Type} {rows : List (List α)} {width : ℕ} (h : ∀ row ∈ rows, row.length = width)
include h

theorem length_flatten_of_rows : rows.flatten.length = rows.length * width := by
  induction rows with
  | nil => simp
  | cons row rows ih =>
    rw [List.flatten_cons, List.length_append, h row List.mem_cons_self,
      ih fun r hr => h r (List.mem_cons_of_mem row hr), List.length_cons, Nat.succ_mul,
      Nat.add_comm]

/-- An index splits into the row and the place in it. -/
theorem getElem?_flatten_of_rows (y : ℕ) {x : ℕ} (hx : x < width) :
    rows.flatten[y * width + x]? = rows[y]?.bind (·[x]?) := by
  induction rows generalizing y with
  | nil => simp
  | cons row rows ih =>
    have hrow := h row List.mem_cons_self
    rw [List.flatten_cons]
    cases y with
    | zero =>
      rw [Nat.zero_mul, Nat.zero_add, List.getElem?_append_left (by omega)]
      rfl
    | succ y =>
      rw [List.getElem?_append_right (by rw [hrow, Nat.succ_mul]; omega), hrow, Nat.succ_mul,
        show y * width + width + x - width = y * width + x by omega,
        ih (fun r hr => h r (List.mem_cons_of_mem row hr)), List.getElem?_cons_succ]

end

namespace WholeType

variable {t : WholeType} {n : ℤ}

/-- A number of a type is kept. -/
theorem wrap_eq (h : t.Holds n) : t.wrap n = ⟨n, h⟩ := by
  have hlow := h.1
  have hhigh := h.2
  refine Subtype.ext ?_
  show (n - t.low) % t.size + t.low = n
  rw [Int.emod_eq_of_lt (by omega) (by omega)]
  omega

/-- A number that lies within a type is its own sample. -/
theorem wrap_val (s : t.Sample) : t.wrap s.val = s := wrap_eq s.property

/-- Every type has zero. -/
theorem wrap_zero_val (t : WholeType) : (t.wrap 0).val = 0 := by
  have hzero : t.Holds 0 := by
    rcases t with ⟨isSigned, width⟩
    cases isSigned <;> cases width <;> decide
  rw [wrap_eq hzero]

end WholeType

namespace Samples

/-- Cells that fill a shape are taken. -/
theorem match_ofCells? {type : SampleType} {shape : List ℕ} {cells : Array type.Sample}
    (h : cells.size = volume shape) (failure : Failure) :
    (match ofCells? type shape cells with
      | some samples => Except.ok samples
      | none => .error failure) = .ok ⟨type, shape, cells, h⟩ := by
  rw [ofCells?, dif_pos h]

end Samples

end Darkroom
