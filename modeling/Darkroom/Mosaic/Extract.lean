import Darkroom.Mosaic.Normalize
import Darkroom.Mosaic.Plane
import Darkroom.Mosaic.Tensor

/-!
# Extraction

A mosaic of red and green over green and blue, rearranged into four normalised planes. Every tile
of two rows and two columns gives one share to each plane; there is no interpolation, and a last
row or column without a partner is dropped.

## Main definitions

* `Plane.quarter`: The sites at one place of every tile.
* `Plane.extract`: The four planes of a mosaic.
-/

namespace Darkroom

namespace Plane

/-- The readings at row `row` and column `col` of every whole tile, row by row. -/
def quarter (p : Plane) (row col : Nat) : Array p.type.Sample :=
  Array.ofFn fun n : Fin (p.height / 2 * (p.width / 2)) =>
    p.reading (2 * (n / (p.width / 2)) + row) (2 * (n % (p.width / 2)) + col)

@[simp]
theorem size_quarter (p : Plane) (row col : Nat) :
    (p.quarter row col).size = p.height / 2 * (p.width / 2) := by
  simp [quarter]

/-- The readings of the four places of the tile, place after place. -/
def quarters (p : Plane) : Array p.type.Sample :=
  p.quarter 0 0 ++ p.quarter 0 1 ++ p.quarter 1 0 ++ p.quarter 1 1

/-- The four planes of a mosaic in a range of readings. -/
def tensorIn (p : Plane) (range : ReadingRange) : Tensor where
  height := p.height / 2
  width := p.width / 2
  cells := p.quarters.map fun reading => range.share (Binary.ofInt reading.val)
  size_eq := by
    simp [quarters]
    omega

/-- The four planes of a mosaic. Black is subtracted on demand. -/
def extract (p : Plane) (pattern : MosaicPattern) (calibration : Calibration)
    (subtractBlack : Bool) : Except Failure Tensor :=
  if !pattern.isRggb then .error (.unsupportedPattern pattern.tileLabels)
  else do
    let black ← if subtractBlack then calibration.blackLevel.toDouble else .ok 0
    let maximum ← calibration.effectiveMaximum
    return p.tensorIn (ReadingRange.between black maximum)

end Plane

end Darkroom
