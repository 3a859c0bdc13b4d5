import Darkroom.Picture.PixelBuffer
import Darkroom.Tone.Adjustment

/-!
# Adjusting pictures

The knobs applied to a whole picture of 8-bit samples with at least three channels. Every pixel is
adjusted on its own: its first three samples change, further channels stay. The work goes through
the picture in place, in chunks of rows; the size of the chunks does not show in the result.

## Main definitions

* `PixelBuffer.adjustPixel`, `adjustRows`, `adjustChunks`: One pixel, the rows of a chunk, and all
  chunks from a row on.
* `PixelBuffer.adjust`: The knobs applied to a picture.
* `Samples.convertTriples`: A conversion of colours along the last axis of an array.
-/

namespace Darkroom

/-- The sample of a type that an 8-bit number becomes. -/
def SampleType.ofByte : (t : SampleType) → Nat → t.Sample
  | .whole t, n => t.wrap n
  | .single, n => (Binary.ofInt n : Single)
  | .double, n => (Binary.ofInt n : Double)

namespace PixelBuffer

/-- One pixel adjusted, among interleaved samples. -/
def adjustPixel (blend : Blend) (type : SampleType) (channels : Nat) (cells : Array type.Sample)
    (pixel : Nat) : Array type.Sample :=
  let i := pixel * channels
  if h : i + 2 < cells.size then
    let (red, green, blue) := blend.pixel (type.toSingle cells[i]) (type.toSingle cells[i + 1])
      (type.toSingle cells[i + 2])
    ((cells.setIfInBounds i (type.ofByte red)).setIfInBounds (i + 1)
      (type.ofByte green)).setIfInBounds (i + 2) (type.ofByte blue)
  else cells

/-- `count` pixels adjusted, from a pixel on. -/
def adjustPixels (blend : Blend) (type : SampleType) (channels : Nat) :
    Nat → Nat → Array type.Sample → Array type.Sample
  | 0, _, cells => cells
  | count + 1, pixel, cells =>
    adjustPixels blend type channels count (pixel + 1)
      (adjustPixel blend type channels cells pixel)

@[simp]
theorem size_adjustPixel (blend : Blend) (type : SampleType) (channels : Nat)
    (cells : Array type.Sample) (pixel : Nat) :
    (adjustPixel blend type channels cells pixel).size = cells.size := by
  unfold adjustPixel
  dsimp only
  split <;> simp

@[simp]
theorem size_adjustPixels (blend : Blend) (type : SampleType) (channels count pixel : Nat)
    (cells : Array type.Sample) :
    (adjustPixels blend type channels count pixel cells).size = cells.size := by
  induction count generalizing pixel cells with
  | zero => rfl
  | succ count ih => simp [adjustPixels, ih]

/-- The rows `first`, …, `last - 1` adjusted. -/
def adjustRows (blend : Blend) (b : PixelBuffer) (first last : Nat) : PixelBuffer where
  height := b.height
  width := b.width
  channels := b.channels
  type := b.type
  cells := adjustPixels blend b.type b.channels ((last - first) * b.width) (first * b.width) b.cells
  size_eq := by simpa using b.size_eq

@[simp]
theorem height_adjustRows (blend : Blend) (b : PixelBuffer) (first last : Nat) :
    (adjustRows blend b first last).height = b.height := rfl

/-- The rows from `start` on adjusted, `step` rows at a time. -/
def adjustChunks (blend : Blend) (step : Nat) (step_pos : 0 < step) (start : Nat)
    (b : PixelBuffer) : PixelBuffer :=
  if start < b.height then
    adjustChunks blend step step_pos (start + step)
      (b.adjustRows blend start (min (start + step) b.height))
  else b
termination_by b.height - start

/-- The number of rows to a chunk: all of them, unless a number is given. Rows cannot be counted
with real numbers, not even with those that are whole. -/
def chunkRows (rows : Option Number) (height : Nat) : Except Failure Nat :=
  match rows with
  | none => .ok (max height 1)
  | some (.whole n) => .ok n.toNat
  | some (.real _) => .error .wrongType

/-- A picture with both knobs applied. -/
def adjust (a : Adjustment) (rows : Option Number) (b : PixelBuffer) :
    Except Failure PixelBuffer :=
  if rows.any Number.isAtMostZero then .error .rowsPerChunk
  else if b.channels < 3 then .error (.tooFewChannels b.channels)
  else if b.bits ≠ 8 then .error (.notEightBit b.bits)
  else if a.isIdentity then .ok b
  else do
    let step ← chunkRows rows b.height
    if b.height = 0 then return b
    let blend ← a.blend
    if h : 0 < step then return b.adjustChunks blend step h 0
    else .error .rowsPerChunk

end PixelBuffer

namespace Samples

/-- The samples of a shape's last axis in threes: `count` rows of `stride` samples each, of which
the first three are converted. -/
def triples (convert : Single → Single → Single → List Single) (stride : Nat)
    (cells : Array Single) (count : Nat) : Array Single :=
  ((List.range count).flatMap fun row =>
    convert (cells.getD (row * stride) 0) (cells.getD (row * stride + 1) 0)
      (cells.getD (row * stride + 2) 0)).toArray

/-- The colours along the last axis of an array converted. -/
def convertTriples (convert : Single → Single → Single → List Single) (a : Samples) :
    Except Failure Samples :=
  match a.shape.getLast? with
  | none => .error .wrongIndex
  | some stride =>
    if stride < 3 then .error .wrongIndex
    else
      let leading := a.shape.dropLast
      let cells := triples convert stride (a.cells.map a.type.toSingle) (volume leading)
      match ofCells? .single (leading ++ [3]) cells with
      | some samples => .ok samples
      | none => .error .wrongIndex

/-- Intensities as hue, saturation and lightness. -/
def toHsl (a : Samples) : Except Failure Samples :=
  a.convertTriples fun r g b =>
    let c := Rgb.toHsl ⟨r, g, b⟩
    [c.hue, c.saturation, c.lightness]

/-- Hue, saturation and lightness as intensities. -/
def toRgb (a : Samples) : Except Failure Samples :=
  a.convertTriples fun h s l =>
    let c := Hsl.toRgb ⟨h, s, l⟩
    [c.red, c.green, c.blue]

/-- Every saturation adjusted. -/
def adjustSaturation (adjustment : Adjustment) (a : Samples) : Except Failure Samples := do
  let blend ← adjustment.blend
  return a.mapCells .single fun cell => blend.apply (a.type.toSingle cell)

/-- Every sample moved between zero and one. -/
def clampUnit (a : Samples) : Samples :=
  a.mapCells .single fun cell => Darkroom.clampUnit (a.type.toSingle cell)

/-- Samples of 8 bits as shares of the greatest one. -/
def toUnit (a : Samples) : Samples :=
  a.mapCells .single fun cell => Darkroom.toUnit (a.type.toSingle cell)

/-- Shares as samples of 8 bits. -/
def toByteSamples (a : Samples) : Samples :=
  a.mapCells (.whole .byte) fun cell =>
    WholeType.byte.wrap (byteOfUnit (a.type.toSingle cell))

end Samples

end Darkroom
