import Darkroom.Numeric.Number
import Darkroom.Tone.Hsl
import Darkroom.Value.Cast

/-!
# Saturation and vibrance

Two knobs change how vivid a picture is. Saturation scales the saturation of every colour alike;
vibrance scales it by an amount that shrinks as the colour, after the first step, is already vivid.
Both steps end by moving the result between zero and one, so a knob of any size is harmless.

A knob at zero leaves its step out. Knobs are given as shares, or on the scale from -100 to 100
that users see.

## Main definitions

* `Adjustment`: The two knobs.
* `Adjustment.blend`: The factors that the knobs stand for, as numbers of 24 bits.
* `Blend.apply`: What the factors make of a saturation.
* `Blend.pixel`: What they make of a pixel.
-/

namespace Darkroom

/-- The two knobs, each a share. -/
structure Adjustment where
  saturation : Number
  vibrance : Number
  deriving DecidableEq

/-- The factors of the two steps; a step that is left out has none. -/
structure Blend where
  scale : Option Single
  vibrance : Option Single
  deriving DecidableEq

/-- `x` moved between zero and one. -/
def clampUnit (x : Single) : Single := x.clamp 0 1

/-- A sample of 8 bits as a share of the greatest one. -/
def toUnit (sample : Single) : Single := sample / 255

/-- The sample of 8 bits nearest to a share, ties to even. Not-a-number becomes zero. -/
def byteOfUnit (x : Single) : Nat :=
  (((x * 255).roundToIntegral.clamp 0 255).truncate?.getD 0).toNat

namespace Blend

/-- What the factors make of a saturation. -/
def apply (b : Blend) (saturation : Single) : Single :=
  let scaled := match b.scale with
    | none => saturation
    | some factor => clampUnit (saturation * factor)
  match b.vibrance with
  | none => scaled
  | some factor => clampUnit (scaled * (1 + factor * (1 - scaled)))

/-- What the factors make of a colour: only its saturation changes. -/
def colour (b : Blend) (c : Hsl) : Hsl := { c with saturation := b.apply c.saturation }

/-- What the factors make of the first three samples of a pixel. -/
def pixel (b : Blend) (red green blue : Single) : Nat × Nat × Nat :=
  let c := (b.colour (Rgb.toHsl ⟨toUnit red, toUnit green, toUnit blue⟩)).toRgb
  (byteOfUnit c.red, byteOfUnit c.green, byteOfUnit c.blue)

end Blend

namespace Adjustment

/-- Knobs from the scale that users see. -/
def ofUserScale (saturation vibrance : Value) : Except Failure Adjustment := do
  let hundred : Double := 100
  let s ← saturation.toReal
  let v ← vibrance.toReal
  return ⟨.real (s / hundred), .real (v / hundred)⟩

/-- Whether both knobs are at zero. -/
def isIdentity (a : Adjustment) : Bool := a.saturation.isZero && a.vibrance.isZero

/-- The factor of the first step: one more than the knob, added in 53 bits. -/
def scale (a : Adjustment) : Except Failure (Option Single) :=
  if a.saturation.isZero then .ok none
  else do
    let knob ← a.saturation.toDouble
    return some (Binary.convert ((1 : Double) + knob))

/-- The factor of the second step. -/
def vibranceFactor (a : Adjustment) : Except Failure (Option Single) :=
  if a.vibrance.isZero then .ok none
  else return some (← a.vibrance.toDouble).convert

/-- The factors that the knobs stand for. -/
def blend (a : Adjustment) : Except Failure Blend :=
  return ⟨← a.scale, ← a.vibranceFactor⟩

end Adjustment

end Darkroom
