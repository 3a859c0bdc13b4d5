import Darkroom.Numeric.Binary

/-!
# Hue, saturation and lightness

A colour as three intensities and as hue, saturation and lightness, all between zero and one, with
the conversions both ways. Every operation rounds to 24 bits, and so do the constants: a third, a
sixth and two thirds are the nearest numbers of the format, and the comparisons are against these.

A grey has hue and saturation zero. Of several intensities that are the greatest, the first in the
order red, green, blue decides the sector of the hue.

## Main definitions

* `Rgb`, `Hsl`: A colour as intensities, and as hue, saturation and lightness.
* `Rgb.toHsl`, `Hsl.toRgb`: The conversions.
-/

namespace Darkroom

/-- A colour as intensities of red, green and blue. -/
structure Rgb where
  red : Single
  green : Single
  blue : Single
  deriving DecidableEq

/-- A colour as hue, saturation and lightness. -/
structure Hsl where
  hue : Single
  saturation : Single
  lightness : Single
  deriving DecidableEq

/-- One half. -/
def half : Single := Binary.ofRatio false 1 2 0

/-- The number nearest to one third. -/
def third : Single := Binary.ofRatio false 1 3 0

/-- The number nearest to one sixth. -/
def sixth : Single := Binary.ofRatio false 1 6 0

/-- The number nearest to two thirds. -/
def twoThirds : Single := Binary.ofRatio false 2 3 0

namespace Rgb

/-- The greatest intensity. -/
def greatest (c : Rgb) : Single := (c.red.maximum c.green).maximum c.blue

/-- The least intensity. -/
def least (c : Rgb) : Single := (c.red.minimum c.green).minimum c.blue

/-- The distance between the greatest and the least intensity. -/
def spread (c : Rgb) : Single := c.greatest - c.least

/-- Halfway between the greatest and the least intensity. -/
def lightness (c : Rgb) : Single := (c.greatest + c.least) / 2

/-- Whether a colour differs from grey. -/
def isChromatic (c : Rgb) : Bool := 0 < c.spread

/-- The spread as a share of the greatest spread that the lightness allows. -/
def saturation (c : Rgb) : Single :=
  if c.isChromatic then
    c.spread / (if half < c.lightness then 2 - c.greatest - c.least else c.greatest + c.least)
  else 0

/-- The place on the colour circle in sixths of a turn, counted from red. -/
def sector (c : Rgb) : Single :=
  if c.greatest.equal c.red then
    (c.green - c.blue) / c.spread + (if c.green < c.blue then 6 else 0)
  else if c.greatest.equal c.green then (c.blue - c.red) / c.spread + 2
  else (c.red - c.green) / c.spread + 4

/-- The place on the colour circle as a share of a turn, below one. -/
def hue (c : Rgb) : Single :=
  if c.isChromatic then (c.sector / 6).modulo 1 else 0

/-- A colour as hue, saturation and lightness. -/
def toHsl (c : Rgb) : Hsl := ⟨c.hue, c.saturation, c.lightness⟩

end Rgb

namespace Hsl

/-- The intensity that the hue `turn` has between the least intensity `low` and the greatest
`high`: it rises in the first sixth of a turn, stays up to the half, and falls until two thirds. -/
def intensity (low high turn : Single) : Single :=
  let turn := if turn < 0 then turn + 1 else turn
  let turn := if 1 < turn then turn - 1 else turn
  if turn < sixth then low + (high - low) * 6 * turn
  else if turn < half then high
  else if turn < twoThirds then low + (high - low) * (twoThirds - turn) * 6
  else low

/-- The greatest intensity of a colour. -/
def high (c : Hsl) : Single :=
  if c.lightness < half then c.lightness * (1 + c.saturation)
  else c.lightness + c.saturation - c.lightness * c.saturation

/-- The least intensity of a colour, as far below its lightness as the greatest is above. -/
def low (c : Hsl) : Single := 2 * c.lightness - c.high

/-- A colour as intensities. Without saturation all three are the lightness. -/
def toRgb (c : Hsl) : Rgb :=
  if c.saturation.isZero then ⟨c.lightness, c.lightness, c.lightness⟩
  else
    ⟨intensity c.low c.high (c.hue + third), intensity c.low c.high c.hue,
      intensity c.low c.high (c.hue - third)⟩

end Hsl

end Darkroom
