import Darkroom.Failure

/-!
# Headers of JPEG pictures

The size and the number of colours of a JPEG picture, as its header states them. The header is a
row of segments, each with a marker of two bytes and most with a length; one of them describes the
frame. A header counts only if it is whole up to the beginning of the scan or, in a picture without
a scan, up to the end of the bytes. Where a marker or a segment is cut off, there is none. Bytes
between segments that are no markers are passed over.

## Main definitions

* `JpegHeader`: The size and the number of colours.
* `JpegHeader.read?`: The header of a picture.
-/

namespace Darkroom

/-- The size of a picture and the number of its colours. -/
structure JpegHeader where
  width : Nat
  height : Nat
  layers : Nat
  deriving DecidableEq, Repr

namespace JpegHeader

/-- A number of two bytes, the highest first. -/
def pair (a b : UInt8) : Nat := 256 * a.toNat + b.toNat

/-- The frame that a segment describes: 8 bits of depth, the size, one, three or four layers, and
three bytes for each layer. -/
def ofFrame? : List UInt8 → Option JpegHeader
  | depth :: h₁ :: h₀ :: w₁ :: w₀ :: layers :: rest =>
    if depth = 8 && (layers = 1 || layers = 3 || layers = 4) && rest.length % 3 = 0 then
      some ⟨pair w₁ w₀, pair h₁ h₀, layers.toNat⟩
    else none
  | _ => none

/-- Whether a segment holds whole tables of 64 entries of one or two bytes. -/
def holdsTables : Nat → List UInt8 → Bool
  | 0, _ => false
  | _, [] => true
  | fuel + 1, kind :: rest =>
    let length := if kind.toNat / 16 = 0 then 64 else 128
    length ≤ rest.length && holdsTables fuel (rest.drop length)

/-- Whether a segment that belongs to an application is whole: where a name is followed by a
version, the version takes two bytes from the sixth on. -/
def isWhole (kind : UInt8) (content : List UInt8) : Bool :=
  let startsWith (name : String) : Bool := name.toUTF8.toList.isPrefixOf content
  let hasVersion := (kind = 0xE0 && startsWith "JFIF") || (kind = 0xEE && startsWith "Adobe")
  !hasVersion || 7 ≤ content.length

/-- What the second byte of a marker announces. -/
inductive Segment where
  | frame
  | tables
  | scan
  | other
  | bare
  | padding
  | junk
  deriving DecidableEq, Repr

/-- What the second byte of a marker announces. -/
def Segment.ofByte (b : UInt8) : Segment :=
  let n := b.toNat
  if n = 0xC4 || n = 0xCC || n = 0xDC || n = 0xDD || n = 0xDF then other
  else if n = 0xC8 then bare
  else if (0xC0 ≤ n && n ≤ 0xCF) || n = 0xDE then frame
  else if 0xD0 ≤ n && n ≤ 0xD9 then bare
  else if n = 0xDA then scan
  else if n = 0xDB then tables
  else if (0xE0 ≤ n && n ≤ 0xEF) || n = 0xFE then other
  else if 0xF0 ≤ n && n ≤ 0xFD then bare
  else if n = 0xFF then padding
  else junk

/-- The content of a segment with a length, and what follows it. -/
def takeSegment? : List UInt8 → Option (List UInt8 × List UInt8)
  | a :: b :: rest =>
    let length := pair a b - 2
    if length ≤ rest.length then some (rest.take length, rest.drop length) else none
  | _ => none

/-- The frame that the segments up to the scan describe, given the one that has been found so far.
Where the bytes end between two segments, that is the end of the header as well. -/
def readSegments? : Nat → Option JpegHeader → List UInt8 → Option JpegHeader
  | 0, _, _ => none
  | fuel + 1, found, bytes =>
    match bytes with
    | 0xFF :: kind :: rest =>
      match Segment.ofByte kind with
      | .padding => readSegments? fuel found (kind :: rest)
      | .bare => readSegments? fuel found rest
      | .junk => if kind = 0 then readSegments? fuel found rest else none
      | segment => do
        let (content, rest) ← takeSegment? rest
        match segment with
        | .scan => found
        | .frame => readSegments? fuel (some (← ofFrame? content)) rest
        | .tables =>
          if holdsTables (content.length + 1) content then readSegments? fuel found rest else none
        | _ => if isWhole kind content then readSegments? fuel found rest else none
    | [0xFF] => none
    | _ :: rest => readSegments? fuel found rest
    | [] => found

/-- The header of a picture. A picture without width or height has none. -/
def read? (data : ByteArray) : Option JpegHeader :=
  match data.toList with
  | 0xFF :: 0xD8 :: 0xFF :: rest => do
    let header ← readSegments? (data.size + 1) none (0xFF :: rest)
    if header.width = 0 || header.height = 0 then none else some header
  | _ => none

end JpegHeader

end Darkroom
