import Darkroom.Numeric.LowBytes
import Darkroom.Numeric.Power

/-!
# Headers of GIF pictures

The size of a GIF picture. The header states the size of a screen, and the first image on it may
reach beyond: the picture is as large as both together. Between them stand extensions, which are
rows of blocks, each after a byte that counts it; an empty block ends the row.

## Main definitions

* `GifHeader.firstImage?`: The size of a screen with the first image on it.
* `GifHeader.size?`: The size of a picture.
-/

namespace Darkroom

namespace GifHeader

/-- A block at the front, if it is not empty, and what follows it. -/
def takeBlock : List UInt8 → Option (List UInt8) × List UInt8
  | [] => (none, [])
  | count :: rest =>
    if count = 0 then (none, rest) else (some (rest.take count.toNat), rest.drop count.toNat)

/-- What follows a row of blocks. -/
def skipBlocks : Nat → List UInt8 → List UInt8
  | 0, _ => []
  | fuel + 1, bytes =>
    match takeBlock bytes with
    | (some _, rest) => if rest.isEmpty then [] else skipBlocks fuel rest
    | (none, rest) => rest

/-- The name that marks a repeated picture. -/
def loopName : List UInt8 := "NETSCAPE2.0".toUTF8.toList

/-- What follows an extension of a kind. An extension that controls how an image is shown has at
least three bytes, and a fourth when a colour is see-through. Only a comment may have no blocks. -/
def skipExtension? (kind : UInt8) (bytes : List UInt8) : Option (List UInt8) :=
  let skip := skipBlocks (bytes.length + 1)
  if kind = 0xFE then some (skip bytes)
  else
    match takeBlock bytes with
    | (none, rest) => some (skip rest)
    | (some block, rest) =>
      if kind = 0xF9 then
        let needed := if (block.headD 0).toNat % 2 = 1 then 4 else 3
        if block.length < needed then none else some (skip rest)
      else if kind = 0xFF && block.take loopName.length = loopName then
        some (skip (takeBlock rest).2)
      else some (skip rest)

/-- What follows a table of colours, whose size the low bits of a byte tell, if its highest bit
announces one. -/
def skipColors (flags : UInt8) (bytes : List UInt8) : List UInt8 :=
  if flags < 128 then bytes else bytes.drop (3 * twoTo (flags.toNat % 8 + 1))

/-- The size of a screen with the first image on it. -/
def firstImage? : Nat → Nat × Nat → List UInt8 → Option (Nat × Nat)
  | 0, _, _ => none
  | fuel + 1, (width, height), bytes =>
    match bytes with
    | [] => none
    | 0x21 :: kind :: rest => do firstImage? fuel (width, height) (← skipExtension? kind rest)
    | 0x2C :: rest => do
      let (place, rest) ← takeBytes? 9 rest
      let number (k : Nat) : Nat := ofLowBytes ((place.drop (2 * k)).take 2)
      if (skipColors (place.getD 8 0) rest).isEmpty then none
      else return (max (number 0 + number 2) width, max (number 1 + number 3) height)
    | b :: rest => if b = 0x3B then none else firstImage? fuel (width, height) rest

/-- The size of a picture. -/
def size? (bytes : List UInt8) : Option (Nat × Nat) := do
  let (name, rest) ← takeBytes? 6 bytes
  if name ≠ "GIF87a".toUTF8.toList && name ≠ "GIF89a".toUTF8.toList then none
  else
    let (width, rest) ← takeBytes? 2 rest
    let (height, rest) ← takeBytes? 2 rest
    let (flags, rest) ← takeBytes? 3 rest
    firstImage? (bytes.length + 1) (ofLowBytes width, ofLowBytes height)
      (skipColors (flags.headD 0) rest)

end GifHeader

end Darkroom
