import Darkroom.Numeric.Binary

/-!
# Fractions with small denominators

The fraction nearest to a number among those whose denominator stays below a bound. The convergents
of the number's continued fraction come ever closer to it from both sides while their denominators
grow. Let `p₁ / q₁` be the last one within the bound and `p₀ / q₀` the one before it. Every fraction
between `p₁ / q₁` and `(p₀ + k p₁) / (q₀ + k q₁)`, with `k` the greatest factor that the bound
admits, has a denominator beyond the bound. The number lies between these two, so one of them is
nearest.

## Main definitions

* `Convergents`: Two neighbouring convergents.
* `Convergents.within`: The last two convergents within a bound.
* `nearestFraction`: The nearest fraction within a bound.
-/

namespace Darkroom

/-- Two neighbouring convergents, `p₀ / q₀` before `p₁ / q₁`. -/
structure Convergents where
  p₀ : Nat
  q₀ : Nat
  p₁ : Nat
  q₁ : Nat
  deriving DecidableEq, Repr

namespace Convergents

/-- The pair before the first digit of a continued fraction. -/
def start : Convergents := ⟨0, 1, 1, 0⟩

/-- The pair after one more digit. -/
def next (c : Convergents) (digit : Nat) : Convergents :=
  ⟨c.p₁, c.q₁, c.p₀ + digit * c.p₁, c.q₀ + digit * c.q₁⟩

/-- The last pair within a bound on denominators; `num / den` is what is left of the number. -/
def within (bound num den : Nat) (c : Convergents) : Convergents :=
  if h : den = 0 then c
  else
    have _ := Nat.mod_lt num (Nat.pos_of_ne_zero h)
    let c' := c.next (num / den)
    if bound < c'.q₁ then c
    else within bound den (num % den) c'
termination_by den

/-- The fraction between the pair, as far from the later one as a bound admits. -/
def between (bound : Nat) (c : Convergents) : Rat :=
  let factor := (bound - c.q₀) / c.q₁
  mkRat (c.p₀ + factor * c.p₁) (c.q₀ + factor * c.q₁)

/-- The later fraction of the pair. -/
def later (c : Convergents) : Rat := mkRat c.p₁ c.q₁

end Convergents

/-- The distance between two numbers. -/
def distance (a b : Rat) : Rat := if a ≤ b then b - a else a - b

/-- The fraction nearest to a number that is not negative, among those whose denominator is at most
`bound`. Of two that are equally near, the one with the smaller denominator is taken. -/
def nearestFraction (bound : Nat) (x : Rat) : Rat :=
  if x.den ≤ bound then x
  else
    let pair := Convergents.start.within bound x.num.toNat x.den
    if distance pair.later x ≤ distance (pair.between bound) x then pair.later
    else pair.between bound

end Darkroom
