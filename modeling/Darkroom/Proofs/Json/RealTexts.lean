import Darkroom.Json.Printer
import Mathlib.Data.Nat.Digits.Defs

/-!
# Real Numbers as JSON

Which real numbers are written as words.

JSON has no words for numbers, so `NaN` and `Infinity` are no JSON, although they are written. They
are written for no finite number: its text begins with a digit, or with a minus and a digit.

## Theorems

* `Decimal.startsWithDigit_render`: A decimal begins with a digit.
* `Json.realText_eq_nan_iff`, `Json.realText_eq_infinity_iff`: The numbers written as words.
-/

namespace Darkroom

/-- A text whose first character is a digit. -/
def StartsWithDigit (s : String) : Prop := ∃ c ∈ s.toList.head?, c.isDigit = true

theorem StartsWithDigit.append {s : String} (h : StartsWithDigit s) (t : String) :
    StartsWithDigit (s ++ t) := by
  rcases h with ⟨c, hhead, hdigit⟩
  refine ⟨c, ?_, hdigit⟩
  rw [String.toList_append, List.head?_append]
  rw [Option.mem_def] at hhead ⊢
  rw [hhead]
  rfl

/-- What begins with a digit is no word. -/
theorem StartsWithDigit.ne {s : String} (h : StartsWithDigit s) {word : String}
    (hword : ∀ c ∈ word.toList.head?, c.isDigit = false) : s ≠ word := by
  rintro rfl
  rcases h with ⟨c, hhead, hdigit⟩
  rw [hword c hhead] at hdigit
  cases hdigit

/-- The digits of a number, or some of them from the front on, begin with a digit. -/
theorem startsWithDigit_take (n : ℕ) {count : ℕ} (h : 0 < count) :
    StartsWithDigit (String.ofList ((decimalDigits n).take count)) := by
  unfold StartsWithDigit
  rw [String.toList_ofList]
  cases hdigits : decimalDigits n with
  | nil => exact absurd hdigits Nat.toDigits_ne_nil
  | cons c rest =>
    have hc : c.isDigit = true := by
      refine Nat.isDigit_of_mem_toDigits (b := 10) (n := n) (by decide) (by decide) ?_
      rw [← decimalDigits, hdigits]
      exact List.mem_cons_self
    refine ⟨c, ?_, hc⟩
    cases count with
    | zero => exact absurd h (Nat.lt_irrefl 0)
    | succ k => rfl

theorem Decimal.startsWithDigit_render (style : DecimalStyle) (d : Decimal) :
    StartsWithDigit (d.render style) := by
  unfold render
  simp only
  split
  · split
    · exact ⟨'0', rfl, rfl⟩
    · exact ⟨'0', rfl, rfl⟩
  · split
    · split
      · exact StartsWithDigit.append ⟨'0', rfl, rfl⟩ _
      · have hbefore : StartsWithDigit (String.ofList ((decimalDigits d.significand).take
            ((decimalDigits d.significand).length + d.exponent - 1).toNat.succ ++
            List.replicate (((decimalDigits d.significand).length + d.exponent - 1).toNat.succ -
              (decimalDigits d.significand).length) '0')) := by
          rw [String.ofList_append]
          exact (startsWithDigit_take _ (Nat.succ_pos _)).append _
        split
        · exact hbefore.append _
        · exact (hbefore.append _).append _
    · exact (((startsWithDigit_take _ one_pos).append _).append _ |>.append _).append _

namespace Json

/-- A finite number is no word. -/
theorem realText_finite_ne (s : Bool) (m : ℕ) (e : ℤ) (h : binary64.Canonical m e) {word : String}
    (hword : ∀ c ∈ word.toList.head?, c.isDigit = false ∧ c ≠ '-') :
    realText (.finite s m e h) ≠ word := by
  have hrender := Decimal.startsWithDigit_render .exact (Binary.shortest (.finite s m e h))
  show Binary.withSign (.finite s m e h) _ ≠ word
  unfold Binary.withSign
  split
  · rintro rfl
    exact (hword '-' (by simp)).2 rfl
  · exact hrender.ne fun c hc => (hword c hc).1

theorem realText_eq_nan_iff (x : Double) : realText x = "NaN" ↔ x = .nan := by
  cases x with
  | nan => exact iff_of_true rfl rfl
  | infinite s =>
    cases s with
    | false => exact iff_of_false (by decide) nofun
    | true => exact iff_of_false (by decide) nofun
  | finite s m e h => exact iff_of_false (realText_finite_ne s m e h (by simp)) nofun

theorem realText_eq_infinity_iff (x : Double) :
    realText x = "Infinity" ↔ x = .infinite false := by
  cases x with
  | nan => exact iff_of_false (by decide) nofun
  | infinite s =>
    cases s with
    | false => exact iff_of_true rfl rfl
    | true => exact iff_of_false (by decide) nofun
  | finite s m e h => exact iff_of_false (realText_finite_ne s m e h (by simp)) nofun

end Json

end Darkroom
