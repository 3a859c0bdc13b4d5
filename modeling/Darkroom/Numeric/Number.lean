import Darkroom.Failure
import Darkroom.Numeric.Binary

/-!
# Numbers as given

Settings and measurements are given as whole numbers of any size or as real numbers of 53 bits. A
whole number stays whole until an operation needs a real one: only then can it turn out to be too
large. Comparisons with small whole numbers are exact for both.

## Main definitions

* `Number`: A whole or a real number.
* `Number.toDouble`: The nearest real number, if there is one.
-/

namespace Darkroom

/-- A number as it was given. -/
inductive Number where
  | whole (n : Int)
  | real (x : Double)
  deriving DecidableEq

/-- The real number nearest to a whole one. Numbers that round beyond the greatest real number are
refused. -/
def realOfWhole (n : Int) : Except Failure Double :=
  let x : Double := Binary.ofInt n
  if x.isFinite then .ok x else .error .tooLargeForReal

namespace Number

instance {n : Nat} : OfNat Number n := ⟨whole n⟩

instance : Inhabited Number := ⟨0⟩

/-- The nearest real number. -/
def toDouble : Number → Except Failure Double
  | whole n => realOfWhole n
  | real x => .ok x

/-- Whether a number is zero. -/
def isZero : Number → Bool
  | whole n => n = 0
  | real x => x.isZero

/-- Whether a number lies above zero. -/
def isPositive : Number → Bool
  | whole n => 0 < n
  | real x => 0 < x

/-- Whether a number is zero or lies below. Not-a-number lies nowhere. -/
def isAtMostZero : Number → Bool
  | whole n => n ≤ 0
  | real x => x ≤ 0

/-- Whether a number is at least one. -/
def atLeastOne : Number → Bool
  | whole n => 1 ≤ n
  | real x => 1 ≤ x

end Number

end Darkroom
