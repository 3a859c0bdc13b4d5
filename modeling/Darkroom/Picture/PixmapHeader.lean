import Darkroom.Value.Cast

/-!
# Headers of pixmaps

The size of a pixmap. Its header is made of words: a name of the kind of pixmap, the width, the
height and, unless every sample is one bit, the greatest sample. Words are divided by blanks, and
what follows `#` up to the end of a line is no part of them. Pixmaps of real numbers have a scale
in place of the greatest sample.

## Main definitions

* `PixmapHeader.takeWord`: A word and what follows it.
* `PixmapHeader.read`: The size of a pixmap.
-/

namespace Darkroom

namespace PixmapHeader

/-- Whether a byte divides words. -/
def isBlankByte (b : UInt8) : Bool := b = 0x20 || (0x09 ≤ b && b ≤ 0x0D)

/-- Whether a byte ends a line. -/
def isLineEnd (b : UInt8) : Bool := b = 0x0A || b = 0x0D

/-- What follows a remark. -/
def skipRemark : List UInt8 → List UInt8
  | [] => []
  | b :: rest => if isLineEnd b then rest else skipRemark rest

theorem length_skipRemark (bytes : List UInt8) : (skipRemark bytes).length ≤ bytes.length := by
  induction bytes with
  | nil => simp [skipRemark]
  | cons b rest ih =>
    unfold skipRemark
    split
    · simp
    · exact Nat.le_succ_of_le ih

/-- The most bytes of a word. -/
def wordLimit : Nat := 10

/-- A word, given its bytes so far in reverse, and what follows it. It ends after a blank, or when
it has become too long. -/
def spanWord (word : List UInt8) (bytes : List UInt8) : List UInt8 × List UInt8 :=
  if wordLimit < word.length then (word.reverse, bytes)
  else match bytes with
    | [] => (word.reverse, [])
    | b :: rest =>
      if isBlankByte b then
        if word.isEmpty then spanWord word rest else (word.reverse, rest)
      else if b = 0x23 then spanWord word (skipRemark rest)
      else spanWord (b :: word) rest
termination_by bytes.length
decreasing_by
  · simp
  · have := length_skipRemark rest
    simp only [List.length_cons]
    omega
  · simp

/-- A word and what follows it. -/
def takeWord (bytes : List UInt8) : Except Failure (Value × List UInt8) :=
  let (word, rest) := spanWord [] bytes
  let data : ByteArray := ⟨word.toArray⟩
  if word.isEmpty then .error .headerEnds
  else if wordLimit < word.length then
    match String.fromUTF8? data with
    | some shown => .error (.longWord shown)
    | none => .error .wrongEncoding
  else .ok (.bytes data, rest)

/-- What a name says about the samples of a pixmap. -/
inductive SampleKind where
  | bits
  | whole
  | real
  deriving DecidableEq, Repr

/-- The names of the kinds of pixmaps. -/
def names : List (String × SampleKind) :=
  [("P1", .bits), ("P2", .whole), ("P3", .whole), ("P4", .bits), ("P5", .whole), ("P6", .whole),
    ("P0CMYK", .whole), ("Pf", .real), ("PyP", .whole), ("PyRGBA", .whole), ("PyCMYK", .whole)]

/-- The name at the front, which has at most six bytes, and what follows it. -/
def takeTitle (bytes : List UInt8) : String × List UInt8 :=
  let title := (bytes.take 6).takeWhile fun b => !isBlankByte b
  let rest := bytes.drop title.length
  (String.ofList (title.map fun b => Char.ofNat b.toNat),
    if title.length < 6 then rest.drop 1 else rest)

/-- The size of a pixmap, which may turn out not to be positive. -/
def read (bytes : List UInt8) : Except Failure (Option (Int × Int)) := do
  let (title, rest) := takeTitle bytes
  match names.lookup title with
  | none => return none
  | some samples =>
    let (width, rest) ← takeWord rest
    let width ← width.toWhole
    let (height, rest) ← takeWord rest
    let height ← height.toWhole
    match samples with
    | .bits => return some (width, height)
    | .whole =>
      let (greatest, _) ← takeWord rest
      let greatest ← greatest.toWhole
      if 0 < greatest && greatest < 65536 then return some (width, height)
      else .error .greatestSample
    | .real =>
      let (scale, _) ← takeWord rest
      let scale ← scale.toReal
      if scale.isFinite && !scale.isZero then return some (width, height) else .error .badScale

end PixmapHeader

end Darkroom
