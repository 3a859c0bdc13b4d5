/-!
# Numbers as bytes

A number as some bytes, the lowest first, and back. A number that needs more bytes loses its
highest ones. Some formats write the highest byte first; that is the same with the bytes reversed.

## Main definitions

* `lowBytes`: The low bytes of a number.
* `ofLowBytes`, `ofHighBytes`: The number that bytes make up.
* `takeBytes?`: Some bytes at the front, if there are so many.
-/

namespace Darkroom

/-- The low bytes of a number, the lowest first. -/
def lowBytes : (count : Nat) → Nat → List UInt8
  | 0, _ => []
  | count + 1, n => UInt8.ofNat n :: lowBytes count (n / 256)

/-- The number that bytes make up, the lowest first. -/
def ofLowBytes : List UInt8 → Nat
  | [] => 0
  | b :: rest => b.toNat + 256 * ofLowBytes rest

/-- The number that bytes make up, the highest first. -/
def ofHighBytes (bytes : List UInt8) : Nat := ofLowBytes bytes.reverse

/-- Some bytes at the front, and those that follow them; too few are nothing. -/
def takeBytes? (count : Nat) (bytes : List UInt8) : Option (List UInt8 × List UInt8) :=
  let front := bytes.take count
  if front.length < count then none else some (front, bytes.drop count)

end Darkroom
