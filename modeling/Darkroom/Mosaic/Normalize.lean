import Darkroom.Samples.Basic
import Darkroom.Tone.Adjustment

/-!
# Normalised readings

Readings as shares of the range from black to the greatest reading. A range that has collapsed,
because the black level is not below the greatest reading, is replaced by the range from zero.

The range is worked out in 53 bits; a reading is moved and divided in 24 bits.

## Main definitions

* `ReadingRange.between`: The range from black to the greatest reading.
* `ReadingRange.share`: The place of a reading in the range, between zero and one.
-/

namespace Darkroom

/-- Where a range begins, and how long it is. -/
structure ReadingRange where
  black : Double
  span : Double

namespace ReadingRange

/-- The range from black to the greatest reading, or from zero when that has collapsed. -/
def between (black maximum : Double) : ReadingRange :=
  let span := maximum - black
  if span ≤ 0 then ⟨0, maximum⟩ else ⟨black, span⟩

/-- The place of a reading in the range, between zero and one. -/
def share (r : ReadingRange) (reading : Single) : Single :=
  clampUnit ((reading - r.black.convert) / r.span.convert)

end ReadingRange

/-- Every sample of an array normalised. -/
def Samples.normalize (a : Samples) (maximum black : Double) : Samples :=
  let range := ReadingRange.between black maximum
  a.mapCells .single fun cell => range.share (a.type.toSingle cell)

end Darkroom
