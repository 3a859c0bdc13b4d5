import Darkroom.Mosaic.Pattern

/-!
# Sensor planes

The readings of a sensor before any colour is made of them: one whole number for each site, row by
row.

## Main definitions

* `Plane`: The readings of a sensor.
* `Plane.reading`: The reading of a site.
* `Calibration`: The black level and the greatest reading that a camera reports.
-/

namespace Darkroom

/-- The readings of a sensor. -/
structure Plane where
  height : Nat
  width : Nat
  type : WholeType
  cells : Array type.Sample
  size_eq : cells.size = height * width

namespace Plane

/-- The plane of an array of height and width. -/
def ofSamples (a : Samples) : Except Failure Plane :=
  match a with
  | ⟨.whole t, [height, width], cells, size_eq⟩ =>
    .ok ⟨height, width, t, cells, by
      have h := size_eq
      simp only [volume, List.foldr, Nat.mul_one] at h
      exact h⟩
  | ⟨type, shape, _, _⟩ =>
    if shape.length ≠ 2 then .error (.planeShape shape) else .error (.planeType type.name)

/-- The readings as an array. -/
def toSamples (p : Plane) : Samples where
  type := .whole p.type
  shape := [p.height, p.width]
  cells := p.cells
  size_eq := by
    show p.cells.size = _
    simp [volume, p.size_eq]

/-- The reading of a site; beside the sensor there is none, and zero stands in for it. -/
def reading (p : Plane) (row col : Nat) : p.type.Sample :=
  p.cells.getD (row * p.width + col) default

end Plane

/-- What a camera reports about its readings: the greatest one, or a number that is not positive
when it does not know, and the reading of black. -/
structure Calibration where
  sensorMaximum : Number
  blackLevel : Number

/-- The greatest reading; when the camera does not know it, the greatest that 16 bits hold. -/
def Calibration.effectiveMaximum (c : Calibration) : Except Failure Double :=
  if c.sensorMaximum.isPositive then c.sensorMaximum.toDouble else .ok 65535

end Darkroom
