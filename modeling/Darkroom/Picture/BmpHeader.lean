import Darkroom.Numeric.LowBytes
import Darkroom.Numeric.Power

/-!
# Headers of BMP pictures

The size of a BMP picture. The header comes in several lengths, which it states itself: in the
shortest one all numbers have two bytes, in the others size and packing have four. A height with
all bits of its highest byte set is negative and stands for rows from top to bottom.

## Main definitions

* `BmpHeader.size?`: The size of a picture.
-/

namespace Darkroom

/-- What the header of a BMP picture states. -/
structure BmpHeader where
  width : Nat
  height : Nat
  depth : Nat
  packing : Nat
  colors : Nat

namespace BmpHeader

/-- The lengths of headers with numbers of four bytes. -/
def longLengths : List Nat := [40, 52, 56, 64, 108, 124]

/-- What a header states, by its length and the bytes after that. -/
def ofContent? (length : Nat) (content : List UInt8) : Option BmpHeader :=
  let number (place bytes : Nat) : Nat := ofLowBytes ((content.drop place).take bytes)
  if length = 12 then some ⟨number 0 2, number 2 2, number 6 2, 0, 0⟩
  else if longLengths.contains length then
    let rows := number 4 4
    let height := if content.getD 7 0 = 0xFF then twoTo 32 - rows else rows
    some ⟨number 0 4, height, number 10 2, number 12 4, number 28 4⟩
  else none

/-- The number of colours in the table of a picture with few colours. -/
def tableSize (h : BmpHeader) : Nat := if h.colors = 0 then twoTo h.depth else h.colors

/-- Whether a picture is packed in a known way: plainly, or as runs of equal pixels. -/
def isKnown (h : BmpHeader) : Bool :=
  [1, 4, 8, 16, 24, 32].contains h.depth && h.packing ≤ 2 &&
    (8 < h.depth || h.tableSize ≤ 65536)

/-- The size of a picture. -/
def size? (bytes : List UInt8) : Option (Nat × Nat) := do
  let (front, rest) ← takeBytes? 14 bytes
  let (length, rest) ← takeBytes? 4 rest
  if front.take 2 ≠ [0x42, 0x4D] then none
  else
    let (content, _) ← takeBytes? (ofLowBytes length - 4) rest
    let header ← ofContent? (ofLowBytes length) content
    if header.isKnown then return (header.width, header.height) else none

end BmpHeader

end Darkroom
