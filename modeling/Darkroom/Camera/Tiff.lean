import Darkroom.Camera.Exif
import Darkroom.Numeric.LowBytes
import Darkroom.Numeric.Power

/-!
# Tags of TIFF files

A TIFF file begins with two letters that say in which order its bytes stand, and with the place of
its first directory. A directory is a count and as many entries of twelve bytes: a tag, a type, a
count of values, and the values themselves or, when they take more than four bytes, their place.
After the entries comes the place of the next directory. The tag of the exposure data holds the
place of a directory of its own.

A number that is cut off by the end of the file, or lies beyond it, reads as zero; a real number is
left out. A file is unreadable when an entry for a single value has none, or when it names no place
for the exposure data; then it has no tags at all. Entries of an unknown type are passed over.

## Main definitions

* `Tiff`: The bytes of a TIFF file, with their order.
* `Tiff.number`: A number in the file.
* `Tiff.directory?`: The tags of a directory.
* `Tiff.tags?`: The tags of a file.
-/

namespace Darkroom

/-- The bytes of a TIFF file; in the middle of a number, the highest may come first. -/
structure Tiff where
  data : ByteArray
  highFirst : Bool

namespace Tiff

/-- A TIFF file, by its first two bytes. -/
def ofBytes? (data : ByteArray) : Option Tiff :=
  match (data.extract 0 2).toList with
  | [0x49, 0x49] => some ⟨data, false⟩
  | [0x4D, 0x4D] => some ⟨data, true⟩
  | _ => none

/-- The bytes at a place, as far as the file goes. -/
def slice (f : Tiff) (place length : Nat) : List UInt8 :=
  (f.data.extract place (place + length)).toList

/-- A number of some bytes without a sign, or nothing when the file ends before it does. -/
def whole? (f : Tiff) (place length : Nat) : Option Nat :=
  let bytes := f.slice place length
  if bytes.length < length then none
  else some (ofLowBytes (if f.highFirst then bytes.reverse else bytes))

/-- A number of some bytes without a sign, or zero when the file ends before it does. -/
def natural (f : Tiff) (place length : Nat) : Nat := (f.whole? place length).getD 0

/-- A number of some bytes; with a sign, its upper half stands for negative numbers. -/
def number (f : Tiff) (isSigned : Bool) (place length : Nat) : Int :=
  let n := f.natural place length
  if isSigned && twoTo (8 * length - 1) ≤ n then (n : Int) - twoTo (8 * length) else n

/-- The types of values. -/
inductive FieldType where
  | natural (bytes : Nat)
  | signed (bytes : Nat)
  | text
  | ratio (isSigned : Bool)
  | single
  | double
  deriving DecidableEq, Repr

/-- The type of a number in an entry. -/
def FieldType.ofNumber? : Nat → Option FieldType
  | 1 => some (natural 1)
  | 2 => some text
  | 3 => some (natural 2)
  | 4 => some (natural 4)
  | 5 => some (ratio false)
  | 6 => some (signed 1)
  | 7 => some (natural 1)
  | 8 => some (signed 2)
  | 9 => some (signed 4)
  | 10 => some (ratio true)
  | 11 => some single
  | 12 => some double
  | 13 => some (natural 4)
  | _ => none

/-- The number of bytes of a value. -/
def FieldType.bytes : FieldType → Nat
  | natural n | signed n => n
  | text => 1
  | single => 4
  | ratio _ | double => 8

/-- A fraction in lowest terms; without a denominator it stays as it is. -/
def reduced (num den : Int) : TagValue :=
  if den = 0 then .ratio (.whole num) (.whole den)
  else
    let x : Rat := num / den
    .ratio (.whole x.num) (.whole x.den)

/-- A value at a place. Real numbers stand in lists of their own; one that is cut off by the end of
the file is no value. -/
def value? (f : Tiff) (place : Nat) : FieldType → Option TagValue
  | .natural n => some (.plain (.whole (f.number false place n)))
  | .signed n => some (.plain (.whole (f.number true place n)))
  | .text => some (.plain (.whole (f.number false place 1)))
  | .ratio isSigned =>
    some (reduced (f.number isSigned place 4) (f.number isSigned (place + 4) 4))
  | .single => (f.whole? place 4).map fun n =>
    let x : Single := Binary.ofBits n
    .plain (.tuple [.real x.convert])
  | .double => (f.whole? place 8).map fun n => .plain (.tuple [.real (Binary.ofBits n)])

/-- The text at a place, up to the first zero; bytes that are no text stay bytes. -/
def text (f : Tiff) (place count : Nat) : Value :=
  let bytes : ByteArray := ⟨((f.slice place count).takeWhile (· ≠ 0)).toArray⟩
  match String.fromUTF8? bytes with
  | some s => .text s
  | none => .bytes bytes

/-- The most values that are read. -/
def valueLimit : Nat := 1000

/-- The text of values: of a single one the value's, of more than 50 only the first 20. -/
def valuesText (count : Nat) (values : List TagValue) : Except Failure String := do
  match count, values with
  | 1, [value] => value.asText
  | _, _ =>
    if 50 < count && 20 < values.length then
      let shown ← (TagValue.items (values.take 20)).shown
      return String.ofList shown.toList.dropLast ++ ", ... ]"
    else TagValue.items values |>.shown

/-- The values of an entry as a tag, unless there is to be a single value and it is missing. -/
def field? (f : Tiff) (type : FieldType) (count place : Nat) : Option TagValue :=
  match type with
  | .text =>
    let content := f.text place count
    content.asText.toOption.map fun text => .tag (.plain content) text
  | type => do
    let read := if count < valueLimit then count else 0
    let values := (List.range read).filterMap fun (k : Nat) =>
      f.value? (place + k * type.bytes) type
    if count = 1 && values.isEmpty then none
    let text ← (valuesText count values).toOption
    return .tag (.items values) text

/-- Tags that are passed over: what they hold is of no use here and may be long. -/
def ignoredTags : List Nat := [0x02BC, 0x927C, 0x9286]

/-- An entry of a directory, unless it is passed over. -/
def entry? (f : Tiff) (place : Nat) : Option (Option (Nat × TagValue)) := do
  let tag := f.natural place 2
  if ignoredTags.contains tag then return none
  match FieldType.ofNumber? (f.natural (place + 2) 2) with
  | none => return none
  | some type =>
    let count := f.natural (place + 4) 4
    let valuePlace := if 4 < count * type.bytes then f.natural (place + 8) 4 else place + 8
    return some (tag, ← f.field? type count valuePlace)

/-- The tags of the directory at a place. -/
def directory? (f : Tiff) (place : Nat) : Option (List (Nat × TagValue)) := do
  let entries ← (List.range (f.natural place 2)).mapM fun (k : Nat) =>
    f.entry? (place + 2 + 12 * k)
  return entries.reduceOption

/-- The places of the directories that follow each other, each once. -/
def chain (f : Tiff) : Nat → List Nat → Nat → List Nat
  | 0, seen, _ => seen
  | fuel + 1, seen, place =>
    if place = 0 || seen.contains place then seen
    else
      let next := f.natural (place + 2 + 12 * f.natural place 2) 4
      chain f fuel (seen ++ [place]) (if next = place then 0 else next)

/-- The tag of the place of the exposure data. -/
def exposureTag : Nat := 0x8769

/-- The tags that are used, with their names in the first directory and in the exposure data. -/
def pictureNames : List (Nat × String) :=
  [(0x010F, "Image Make"), (0x0110, "Image Model"), (0x0132, "Image DateTime")]

def exposureNames : List (Nat × String) :=
  [(0x829A, "EXIF ExposureTime"), (0x829D, "EXIF FNumber"), (0x8827, "EXIF ISOSpeedRatings"),
    (0x9003, "EXIF DateTimeOriginal"), (0x920A, "EXIF FocalLength")]

/-- Tags by name. Of a tag that occurs twice, the later one counts. -/
def named (names : List (Nat × String)) (tags : List (Nat × TagValue)) : Exif.Tags :=
  tags.reverse.filterMap fun (tag, value) => (names.lookup tag).map (·, value)

/-- The exposure data, whose place is the first value of a tag. What is no number is no place. -/
def exposure? (f : Tiff) : TagValue → Option Exif.Tags
  | .tag (.items []) _ => none
  | .tag (.items (.plain (.whole place) :: _)) _ =>
    if place < 0 then none else named exposureNames <$> f.directory? place.toNat
  | .tag (.plain (.text s)) _ => if s.isEmpty then none else some []
  | .tag (.plain (.bytes data)) _ =>
    named exposureNames <$> f.directory? (data.toList.headD 0).toNat
  | _ => some []

/-- The tags of a file, unless it is unreadable. -/
def tags? (f : Tiff) : Option Exif.Tags := do
  let directories ← (f.chain (f.data.size + 2) [] (f.natural 4 4)).mapM f.directory?
  let picture := directories.headD []
  let exposure ← match picture.reverse.lookup exposureTag with
    | some value => f.exposure? value
    | none => some []
  return named pictureNames picture ++ exposure

end Tiff

end Darkroom
