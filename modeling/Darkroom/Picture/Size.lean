import Darkroom.Picture.BmpHeader
import Darkroom.Picture.GifHeader
import Darkroom.Picture.JpegHeader
import Darkroom.Picture.PixmapHeader
import Darkroom.Picture.PngHeader

/-!
# Sizes of packed pictures

The size of a picture in one of five formats, as its header states it; which format it is, its
first bytes tell. A header that is not whole states nothing. A picture with more pixels than any
camera takes is refused, whatever else its file holds.

## Main definitions

* `PictureSize`: A width and a height.
* `PictureSize.read`: The size of a picture, if its format is known.
-/

namespace Darkroom

/-- The size of a picture. -/
structure PictureSize where
  width : Nat
  height : Nat
  deriving DecidableEq, Repr

namespace PictureSize

/-- The most pixels of a picture. -/
def pixelLimit : Nat := 178956970

/-- A size that is stated. Without width or height it is none, and it is not too large. -/
def checked : Nat × Nat → Except Failure (Option PictureSize)
  | (width, height) =>
    if width = 0 || height = 0 then .ok none
    else if pixelLimit < width * height then .error .oversizedPicture
    else .ok (some ⟨width, height⟩)

/-- The size that the header of a picture states, before anything is said about it. -/
def stated (data : ByteArray) : Except Failure (Option (Nat × Nat)) :=
  let bytes := data.toList
  match bytes with
  | 0x42 :: 0x4D :: _ => .ok (BmpHeader.size? bytes)
  | 0x47 :: 0x49 :: 0x46 :: _ => .ok (GifHeader.size? bytes)
  | 0x50 :: _ => do
    match ← PixmapHeader.read bytes with
    | some (width, height) => return some (width.toNat, height.toNat)
    | none => return none
  | 0x89 :: _ => PngHeader.read bytes
  | _ => .ok ((JpegHeader.read? data).map fun header => (header.width, header.height))

/-- The size of a picture, if its format is known. -/
def read (data : ByteArray) : Except Failure (Option PictureSize) := do
  match ← stated data with
  | some size => checked size
  | none => return none

end PictureSize

end Darkroom
