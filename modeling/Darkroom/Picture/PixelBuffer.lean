import Darkroom.Samples.Basic

/-!
# Pictures

A decoded picture: interleaved samples, row by row, the channels of a pixel side by side. Sample
`k` of the pixel in row `y` and column `x` is number `(y · width + x) · channels + k`.

A picture is packed from bytes or numbers when their count is the product of the dimensions, and
unpacked into the bytes of its samples in order.

## Main definitions

* `PixelBuffer`: A picture.
* `PixelBuffer.ofInterleaved`: The picture of interleaved samples.
* `PixelBuffer.toBytes`: The bytes of a picture.
-/

namespace Darkroom

/-- Interleaved samples of a picture. -/
structure PixelBuffer where
  height : Nat
  width : Nat
  channels : Nat
  type : SampleType
  cells : Array type.Sample
  size_eq : cells.size = height * width * channels

namespace PixelBuffer

/-- The number of bits of a sample. -/
def bits (b : PixelBuffer) : Nat := b.type.bits

/-- The samples as an array. -/
def toSamples (b : PixelBuffer) : Samples where
  type := b.type
  shape := [b.height, b.width, b.channels]
  cells := b.cells
  size_eq := by simp [volume, b.size_eq, Nat.mul_assoc]

/-- The picture of an array of height, width and channels. -/
def ofSamples (a : Samples) : Except Failure PixelBuffer :=
  match h : a.shape with
  | [height, width, channels] =>
    .ok ⟨height, width, channels, a.type, a.cells, by
      simp [a.size_eq, h, volume, Nat.mul_assoc]⟩
  | shape => .error (.bufferShape shape)

/-- The first channels of every pixel as an array. -/
def firstChannels (b : PixelBuffer) (count : Nat) : Samples where
  type := b.type
  shape := [b.height, b.width, count]
  cells := Array.ofFn fun k : Fin (b.height * b.width * count) =>
    b.cells.getD (k / count * b.channels + k % count) default
  size_eq := by simp [volume, Nat.mul_assoc]

/-- The bytes of a picture. -/
def toBytes (b : PixelBuffer) : ByteArray := b.toSamples.toBytes

/-- Whether all samples agree, as numbers: not-a-number agrees with nothing. -/
def sameSamples (a b : PixelBuffer) : Bool :=
  a.height = b.height && a.width = b.width && a.channels = b.channels &&
    a.toSamples.toSingles.cells.size = b.toSamples.toSingles.cells.size &&
    (List.zipWith agree (values a) (values b)).all id
where
  values (b : PixelBuffer) : List Double := b.cells.toList.map fun cell =>
    match b.type, cell with
    | .whole _, n => Binary.ofInt n.val
    | .single, x => Binary.convert (f := binary32) x
    | .double, x => x
  agree (x y : Double) : Bool := x.equal y

/-- The samples that bytes hold, the lowest byte of each first. -/
def samplesOfBytes (t : WholeType) (data : ByteArray) : Except Failure (Array t.Sample) :=
  let width := t.width.bytes
  if data.size % width ≠ 0 then .error .partialSample
  else .ok (Array.ofFn fun i : Fin (data.size / width) =>
    t.wrap (ofLowBytes (List.ofFn fun k : Fin width => data.get! (i * width + k))))

/-- The type of samples of a depth. -/
def depthType? (bits : Int) : Option WholeType :=
  if bits = 8 then some .byte else if bits = 16 then some .word else none

/-- A picture of samples in order. The dimensions must be as many as their product says, and none
may be negative. -/
def ofCells (t : WholeType) (cells : Array t.Sample) (width height channels : Int) :
    Except Failure PixelBuffer :=
  let expected := width * height * channels
  if (cells.size : Int) ≠ expected then
    .error (.sampleCount expected (toString width) (toString height) (toString channels) cells.size)
  else do
    let flat : Samples := ⟨.whole t, [cells.size], cells, (Nat.mul_one _).symm⟩
    ofSamples (← flat.reshape [height, width, channels])

/-- Interleaved samples as they are handed over. -/
inductive Interleaved where
  | bytes (data : ByteArray)
  | numbers (values : Value)

/-- The samples in order. -/
def Interleaved.read (t : WholeType) : Interleaved → Except Failure (Array t.Sample)
  | bytes data => samplesOfBytes t data
  | numbers values => do
    let _ ← Samples.evenShape values
    (Samples.leaves values).toArray.mapM t.read

/-- The picture of interleaved samples of a depth. Dimensions and depth are cast to whole numbers,
and failures show them as they were given. -/
def ofInterleaved (source : Interleaved) (width height channels bits : Value) :
    Except Failure PixelBuffer := do
  match depthType? (← bits.toWhole) with
  | none => .error (.unsupportedDepth (← bits.asText))
  | some t =>
    let cells ← source.read t
    let w ← width.toWhole
    let h ← height.toWhole
    let c ← channels.toWhole
    let expected := w * h * c
    if (cells.size : Int) ≠ expected then
      .error (.sampleCount expected (← width.asText) (← height.asText) (← channels.asText)
        cells.size)
    else ofCells t cells w h c

end PixelBuffer

end Darkroom
