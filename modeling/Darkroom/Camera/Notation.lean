import Darkroom.Numeric.Decimal
import Darkroom.Numeric.Fraction
import Darkroom.Value.Cast

/-!
# How exposures are written

Exposure times of a second and more are written as decimals, shorter ones as fractions: `2.5`,
`1/125`. The fraction is the nearest one with a denominator of at most a million. Apertures are
written as `f/2.8`, sizes as `4000x3000`. What is unknown, or not positive, is not written at all.

## Main definitions

* `shutterText`: An exposure time.
* `apertureText`: An aperture.
* `dimensionsText`: A size.
-/

namespace Darkroom

/-- The greatest denominator of an exposure time. -/
def shutterBound : Nat := 1000000

/-- The value of a number as a fraction. -/
def Number.toFraction : Number → Except Failure Rat
  | whole n => .ok n
  | real x => if x.isNaN then .error .nanToFraction else .ok x.toRat

/-- A fraction as its numerator and denominator. -/
def fractionText (x : Rat) : String := s!"{x.num}/{x.den}"

/-- The nearest fraction to a number below one, under a bound that may be any number. A bound that
is not whole only serves for fractions that are within it as they are. -/
def boundedFraction (x : Rat) : Number → Except Failure Rat
  | .whole bound =>
    if bound < 1 then .error .noDenominator else .ok (nearestFraction bound.toNat x)
  | .real bound =>
    if bound < 1 then .error .noDenominator
    else if bound.isNaN then .error .divisionByZero
    else if bound.isFinite && bound.toRat < x.den then .error .wrongType
    else .ok x

/-- Whether a number is written at all: it is not zero or less. -/
def Number.isWritten : Number → Bool
  | whole n => 0 < n
  | real x => !(x ≤ 0)

/-- An exposure time in seconds. -/
def shutterText (seconds bound : Number) : Except Failure (Option String) :=
  if !seconds.isWritten then .ok none
  else if seconds.atLeastOne then return some (← seconds.toDouble).briefText
  else return some (fractionText (← boundedFraction (← seconds.toFraction) bound))

/-- An aperture as the share of the focal length that it opens. -/
def apertureText (aperture : Number) : Except Failure (Option String) :=
  if !aperture.isWritten then .ok none
  else return some ("f/" ++ (← aperture.toDouble).fixedText 1)

/-- A size. -/
def dimensionsText (width height : Int) : Except Failure String :=
  return (← Value.wholeText width) ++ "x" ++ (← Value.wholeText height)

end Darkroom
