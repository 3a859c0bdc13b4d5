import Darkroom.Camera.Tiff

/-!
# Where tags stand

Tags are a TIFF file, but that file may stand inside another: in a segment of a JPEG picture, or
in a chunk of a PNG or WebP picture. Segments and chunks state their lengths, so that those before
the tags are passed over. The places in the tags count from the beginning of the file inside.

A TIFF file of its own starts with two letters for the order of its bytes. Of a file inside another
only the first of them is looked at.

## Main definitions

* `Tiff.inJpeg?`, `Tiff.inPng?`, `Tiff.inWebp?`: The tags inside a picture.
* `Tiff.find?`: The tags of a file of any of these kinds.
* `Tiff.read?`: Their names and values.
-/

namespace Darkroom

namespace Tiff

/-- The bytes at a place of a file, as far as the file goes. -/
def bytesAt (data : ByteArray) (place length : Nat) : List UInt8 :=
  (data.extract place (place + length)).toList

/-- Whether a text stands at a place of a file. -/
def hasText (data : ByteArray) (place : Nat) (text : String) : Bool :=
  bytesAt data place text.utf8ByteSize == text.toUTF8.toList

/-- The tags from a place of a file on, unless the file ends there. -/
def within? (data : ByteArray) (place : Nat) : Option Tiff :=
  match bytesAt data place 1 with
  | [order] => some ⟨data.extract place data.size, order ≠ 0x49⟩
  | _ => none

/-- The names of segments that stand before all others. -/
def leadingNames : List String := ["JFIF", "JFXX", "OLYM", "Phot"]

/-- The place after a segment. -/
def afterSegment? (data : ByteArray) (place : Nat) : Option Nat :=
  match bytesAt data (place + 2) 2 with
  | [high, low] => some (place + 2 + ofHighBytes [high, low])
  | _ => none

/-- The place after the segments that stand before all others. -/
def skipLeading (data : ByteArray) : Nat → Nat → Nat
  | 0, place => place
  | fuel + 1, place =>
    let isLeading := bytesAt data place 1 == [0xFF] &&
      leadingNames.any fun name => hasText data (place + 4) name
    if isLeading then (afterSegment? data place).elim place (skipLeading data fuel) else place

/-- The place of the tags in a segment from a place on. No segment with tags follows the tables that
the picture is packed with. -/
def segmentPlace? (data : ByteArray) : Nat → Nat → Option Nat
  | 0, _ => none
  | fuel + 1, place =>
    let marker := bytesAt data place 2
    if marker == [0xFF, 0xE1] && hasText data (place + 4) "Exif" then some (place + 10)
    else if marker == [0xFF, 0xDB] then none
    else do segmentPlace? data fuel (← afterSegment? data place)

/-- How far behind the leading segments the one with the tags is looked for. -/
def segmentReach : Nat := 4000

/-- The tags inside a JPEG picture. -/
def inJpeg? (data : ByteArray) : Option Tiff := do
  let start := skipLeading data data.size 2
  within? data (← segmentPlace? (data.extract 0 (start + segmentReach)) data.size start)

/-- The tags in a chunk of a PNG picture from a place on. -/
def inChunks? (data : ByteArray) : Nat → Nat → Option Tiff
  | 0, _ => none
  | fuel + 1, place =>
    if hasText data (place + 4) "eXIf" then within? data (place + 8)
    else if data.size ≤ place + 4 || hasText data (place + 4) "IEND" then none
    else inChunks? data fuel (place + 12 + ofHighBytes (bytesAt data place 4))

/-- The tags inside a PNG picture. -/
def inPng? (data : ByteArray) : Option Tiff := inChunks? data data.size 8

/-- The tags in a chunk of a WebP picture from a place on. -/
def inWebpChunks? (data : ByteArray) : Nat → Nat → Option Tiff
  | 0, _ => none
  | fuel + 1, place =>
    if data.size < place + 8 then none
    else if hasText data place "EXIF" then within? data (place + 14)
    else inWebpChunks? data fuel (place + 8 + ofLowBytes (bytesAt data (place + 4) 4))

/-- The tags inside a WebP picture that has more than the picture itself. -/
def inWebp? (data : ByteArray) : Option Tiff :=
  match hasText data 12 "VP8X", bytesAt data 16 1 with
  | true, [length] => if length.toNat / 8 % 2 = 1 then inWebpChunks? data data.size 30 else none
  | _, _ => none

/-- The tags of a file. -/
def find? (data : ByteArray) : Option Tiff :=
  if hasText data 0 "RIFF" && hasText data 8 "WEBP" then inWebp? data
  else if bytesAt data 0 2 == [0xFF, 0xD8] then inJpeg? data
  else if bytesAt data 0 8 == [0x89, 0x50, 0x4E, 0x47, 0x0D, 0x0A, 0x1A, 0x0A] then inPng? data
  else ofBytes? data

/-- The names and values of the tags of a file, unless it has none or is unreadable. -/
def read? (data : ByteArray) : Option Exif.Tags := do (← find? data).tags?

end Tiff

end Darkroom
