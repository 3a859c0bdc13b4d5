import Darkroom.Failure
import Darkroom.Samples.Basic

/-!
# Arrays as bytes

An array of numbers or of short texts in a file of its own: a line that says of what kind its
elements are and how many there are, and then the elements in order. The line is filled up with
blanks so that the elements begin at a multiple of 64, and it has room for a longer first
dimension.

## Main definitions

* `ElementKind`: The kinds of elements.
* `arrayBytes`: An array as bytes.
* `Samples.arrayBytes`, `wholeArrayBytes`, `textArrayBytes`: Arrays of some kinds as bytes.
-/

namespace Darkroom

/-- The kinds of elements: real numbers of 32 bits, whole numbers of 64 bits, and texts of at most
some length. -/
inductive ElementKind where
  | single
  | long
  | text (length : Nat)

/-- The name of a kind. -/
def ElementKind.name : ElementKind → String
  | single => "<f4"
  | long => "<i8"
  | text length => s!"<U{length}"

/-- What the line says about an array. -/
def arrayDescription (kind : ElementKind) (shape : List Nat) : String :=
  let room := match shape with
    | [] => 0
    | size :: _ => 21 - (toString size).length
  "\x7b'descr': '" ++ kind.name ++ "', 'fortran_order': False, 'shape': " ++ shapeText shape ++
    ", \x7d" ++ String.ofList (List.replicate room ' ')

/-- The bytes before the line: a mark, and the version of the form. -/
def arrayMark : List UInt8 := 0x93 :: "NUMPY".toUTF8.toList ++ [1, 0]

/-- An array as bytes. -/
def arrayBytes (kind : ElementKind) (shape : List Nat) (elements : List UInt8) : List UInt8 :=
  let description := (arrayDescription kind shape).toUTF8.toList
  let blanks := 64 - (arrayMark.length + 2 + description.length + 1) % 64
  let line := description ++ List.replicate blanks 0x20 ++ [0x0A]
  arrayMark ++ lowBytes 2 line.length ++ line ++ elements

/-- Samples as bytes, as real numbers of 32 bits. -/
def Samples.arrayBytes (a : Samples) : List UInt8 :=
  Darkroom.arrayBytes .single a.shape a.toSingles.toBytes.toList

/-- A whole number as bytes. -/
def wholeArrayBytes (n : Nat) : List UInt8 := arrayBytes .long [] (lowBytes 8 n)

/-- Texts as bytes: the characters of each with four bytes, up to the greatest length. -/
def textArrayBytes (texts : List String) : List UInt8 :=
  let length := (texts.map String.length).foldl max 0
  arrayBytes (.text length) [texts.length] (texts.flatMap fun text =>
    let numbers := text.toList.map Char.toNat
    (numbers ++ List.replicate (length - numbers.length) 0).flatMap (lowBytes 4))

end Darkroom
