import Darkroom.Archive.Checksum
import Darkroom.Failure
import Darkroom.Numeric.LowBytes

/-!
# Headers of PNG pictures

The size of a PNG picture. After a signature the file is a row of chunks: a length, a name of four
letters, the content, and a checksum of name and content. One chunk describes the picture, and it
counts once the picture itself begins or the file is closed; until then every checksum must agree.

## Main definitions

* `PngHeader.readChunks`: The size that chunks state.
* `PngHeader.read`: The size of a picture.
-/

namespace Darkroom

namespace PngHeader

/-- The bytes that every file starts with. -/
def signature : List UInt8 := [0x89, 0x50, 0x4E, 0x47, 0x0D, 0x0A, 0x1A, 0x0A]

/-- Whether a kind of colour comes with a depth. -/
def isColor (depth kind : Nat) : Bool :=
  match kind with
  | 0 => [1, 2, 4, 8, 16].contains depth
  | 3 => [1, 2, 4, 8].contains depth
  | 2 | 4 | 6 => [8, 16].contains depth
  | _ => false

/-- Whether a byte may stand in the name of a chunk. -/
def isLetter (b : UInt8) : Bool :=
  let c := Char.ofNat b.toNat
  b < 128 && (c.isAlphanum || c = '_')

/-- The name of a chunk as a text. -/
def nameText (name : List UInt8) : String := String.ofList (name.map fun b => Char.ofNat b.toNat)

/-- The fewest bytes that describe a picture. -/
def descriptionSize : Nat := 13

/-- The size that a description states, unless its colours or its filter are of no known kind. -/
def ofDescription? (content : List UInt8) : Option (Nat × Nat) := do
  let (width, rest) ← takeBytes? 4 content
  let (height, rest) ← takeBytes? 4 rest
  match rest with
  | depth :: kind :: _ :: filter :: _ =>
    if isColor depth.toNat kind.toNat && filter = 0 then
      return (ofHighBytes width, ofHighBytes height)
    else none
  | _ => none

/-- A chunk at the front: its name, its length, and what follows. -/
def takeName? (bytes : List UInt8) : Option (List UInt8 × Nat × List UInt8) := do
  let (length, rest) ← takeBytes? 4 bytes
  let (name, rest) ← takeBytes? 4 rest
  if name.all isLetter then return (name, ofHighBytes length, rest) else none

/-- A content at the front with its checksum, and what follows. -/
def takeContent? (length : Nat) (bytes : List UInt8) :
    Option (List UInt8 × Nat × List UInt8) := do
  let (content, rest) ← takeBytes? length bytes
  let (sum, rest) ← takeBytes? 4 rest
  return (content, ofHighBytes sum, rest)

/-- The size that chunks state, given the size found before them. A description that is too short is
a failure. -/
def readChunks : Nat → Option (Nat × Nat) → List UInt8 → Except Failure (Option (Nat × Nat))
  | 0, _, _ => .ok none
  | fuel + 1, found, bytes =>
    match takeName? bytes with
    | none => .ok none
    | some (name, length, rest) =>
      let title := nameText name
      let isShort := title = "IHDR" && length < descriptionSize && length ≤ rest.length
      if title = "IDAT" || title = "IEND" then .ok found
      else if isShort then .error .shortDescription
      else match takeContent? length rest with
        | none => .ok none
        | some (content, sum, rest) =>
          if sum ≠ (checksum (name ++ content)).toNat then .ok none
          else if title ≠ "IHDR" then readChunks fuel found rest
          else match ofDescription? content with
            | some size => readChunks fuel (some size) rest
            | none => .ok none

/-- The size of a picture. -/
def read (bytes : List UInt8) : Except Failure (Option (Nat × Nat)) :=
  match takeBytes? 8 bytes with
  | some (front, rest) =>
    if front = signature then readChunks (bytes.length + 1) none rest else .ok none
  | none => .ok none

end PngHeader

end Darkroom
