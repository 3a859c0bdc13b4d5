/-!
# Checksums

The checksum that an archive keeps of every member: the remainder of a polynomial division over
bits. The bits of a byte are divided from the lowest on; the remainder starts with all bits set and
is inverted at the end, so that zeros at the front of a text count.

## Main definitions

* `checksumStep`: The division of one bit.
* `checksum`: The checksum of bytes.
-/

namespace Darkroom

/-- The polynomial, without its highest term, the lowest bit standing for the highest power. -/
def checksumPolynomial : UInt32 := 0xEDB88320

/-- The division of one bit. -/
def checksumStep (remainder : UInt32) : UInt32 :=
  if remainder % 2 = 1 then remainder / 2 ^^^ checksumPolynomial else remainder / 2

/-- The division of the bits of a byte. -/
def checksumByte (remainder : UInt32) (b : UInt8) : UInt32 :=
  Nat.repeat checksumStep 8 (remainder ^^^ b.toUInt32)

/-- The checksum of bytes. -/
def checksum (bytes : List UInt8) : UInt32 := ~~~(bytes.foldl checksumByte 0xFFFFFFFF)

end Darkroom
