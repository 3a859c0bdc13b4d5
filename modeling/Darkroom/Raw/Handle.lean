import Darkroom.Mosaic.Plane
import Darkroom.Picture.PixelBuffer
import Darkroom.Settings.Decode

/-!
# Handles

What the RAW library shows of an open file: the readings of its sensor, the mosaic, levels and
sizes, and the pictures that it develops or finds inside. The library is free to report nothing, or
something of another type than expected; what is reported is kept as it is, and every use of it
casts it. The library may also fail to say how large a picture is and of how many colours.

## Main definitions

* `Reading`: What becomes of asking the library for something.
* `Handle`: An open file.
* `Handle.outline`: What is looked at as soon as a file is open.
* `Handle.pattern?`: The mosaic of the sensor.
* `Handle.blackLevels?`: The four black levels.
* `Handle.whiteBalance`: The four factors of the camera's white balance.
-/

namespace Darkroom

/-- What the library makes of a file: a picture, or a failure with a reason. -/
inductive Development where
  | picture (samples : Samples)
  | failure (reason : String)

/-- A file may come out the same with whatever options it is developed. -/
instance : Coe Development (Options → Development) := ⟨fun made _ => made⟩

/-- The picture inside a file: none that can be used, a failure, a JPEG, or samples. -/
inductive Preview where
  | absent
  | failure (reason : String)
  | jpeg (data : ByteArray)
  | bitmap (samples : Samples)

/-- The sizes that a file states. -/
structure Sizes where
  rawHeight : Value
  rawWidth : Value
  height : Value
  width : Value
  innerHeight : Value
  innerWidth : Value
  flip : Value

/-- What becomes of asking the library for something that it may fail to say. -/
abbrev Reading (α : Type) := Except Failure α

/-- Mostly it says it. -/
instance : Coe Value (Reading Value) := ⟨.ok⟩

instance : Coe Sizes (Reading Sizes) := ⟨.ok⟩

/-- An open file. What becomes of it depends on the options that it is developed with. -/
structure Handle where
  visible : Samples
  pattern : Value
  colorDescription : Value
  colorCount : Reading Value
  whiteLevel : Value
  blackLevels : Value
  cameraWhiteBalance : Value
  sizes : Reading Sizes
  development : Options → Development
  preview : Preview
  canClose : Bool

namespace Handle

/-- What is looked at as soon as a file is open: the sizes and the number of colours. -/
def outline (h : Handle) : Reading (Sizes × Value) := do return (← h.sizes, ← h.colorCount)

/-- Bytes as a text of plain characters; every other byte becomes a mark. -/
def plainText (data : ByteArray) : String :=
  String.ofList (data.toList.map fun b =>
    if b.toNat < 128 then Char.ofNat b.toNat else Char.ofNat 0xFFFD)

/-- The labels of the channels. -/
def labels (h : Handle) : Except Failure String :=
  match h.colorDescription with
  | .bytes data => .ok (plainText data)
  | value => value.asText

/-- The mosaic of the sensor, if it has one. -/
def pattern? (h : Handle) : Except Failure (Option MosaicPattern) :=
  match h.pattern with
  | .null => .ok none
  | pattern => do return some (← MosaicPattern.ofValue (← h.labels) pattern)

/-- The four black levels, if they are reported. Of three, the second counts twice; of more than
four, the first four count. -/
def blackLevels? (h : Handle) : Except Failure (Option (Int × Int × Int × Int)) :=
  match h.blackLevels with
  | .null => .ok none
  | reported => do
    match ← ((← reported.toElements).take 4).mapM Value.toWhole with
    | [a, b, c] => return some (a, b, c, b)
    | [a, b, c, d] => return some (a, b, c, d)
    | _ => return none

/-- The least of four black levels, or zero. -/
def leastBlack : Option (Int × Int × Int × Int) → Int
  | some (a, b, c, d) => min (min a b) (min c d)
  | none => 0

/-- The greatest reading, or zero when it is not reported. -/
def maximum (h : Handle) : Except Failure Int :=
  if h.whiteLevel.isTrue then h.whiteLevel.toWhole else .ok 0

/-- The four factors of the camera's white balance. Of three, the second counts twice; fewer count
as no balance at all. -/
def whiteBalance (h : Handle) : Except Failure (Double × Double × Double × Double) :=
  match h.cameraWhiteBalance with
  | .null => .ok (1, 1, 1, 1)
  | reported => do
    match ← (← reported.toElements).mapM Value.toReal with
    | a :: b :: c :: d :: _ => return (a, b, c, d)
    | [a, b, c] => return (a, b, c, b)
    | _ => return (1, 1, 1, 1)

end Handle

end Darkroom
