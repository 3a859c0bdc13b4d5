import Darkroom.Value.Cast

/-!
# What a camera says about a picture

The make and model of a camera, when a picture was taken, and how it was exposed. Cameras write
these in tags whose values take many forms: numbers, fractions, lists of either, texts with blanks
and zeros around them. Whatever cannot be read is left out, and so is every exposure number that is
not positive.

## Main definitions

* `TagValue`: The value of a tag.
* `TagValue.number?`: The number that a value is worth.
* `TagValue.label?`: The text that a value stands for.
* `Exif`: What a camera says.
* `Exif.ofTags`: What tags say.
-/

namespace Darkroom

/-- The value of a tag: something plain, a list, a fraction, or a tag of its own with a text. -/
inductive TagValue where
  | plain (value : Value)
  | items (values : List TagValue)
  | ratio (numerator denominator : Value)
  | tag (values : TagValue) (text : String)
  deriving Inhabited

namespace TagValue

/-- A plain value, with lists as lists of values. -/
def ofValue : Value → TagValue
  | .items values | .tuple values => items (values.map plain)
  | value => plain value

/-- Whether a value counts as given. Fractions and tags always do. -/
def isGiven : TagValue → Bool
  | plain value => value.isTrue
  | items values => !values.isEmpty
  | ratio .. | tag .. => true

/-- The first value of a list, and every other value itself. -/
def first : TagValue → TagValue
  | items (value :: _) => value
  | value => value

/-- The first value inside a tag, and every other value itself. -/
def content : TagValue → TagValue
  | tag (items (value :: _)) _ => value
  | value => value

/-- A fraction as a real number. Without a denominator, or with zero, there is none. -/
def quotient (numerator denominator : Value) : Except Failure (Option Double) := do
  let den ← if denominator.isTrue then denominator.toReal else pure 0
  if den.isZero then return none else return some ((← numerator.toReal) / den)

/-- A value as a real number, or nothing when it is no number. Only a whole number that is too large
is a failure. -/
def realOr? (value : Value) : Except Failure (Option Double) :=
  match value.toReal with
  | .ok x => .ok (some x)
  | .error .tooLargeForReal => .error .tooLargeForReal
  | .error _ => .ok none

/-- The number that a value is worth. -/
def number? (value : TagValue) : Except Failure (Option Double) :=
  match value.first.content with
  | ratio numerator denominator => quotient numerator denominator
  | plain value => realOr? value
  | items _ | tag .. => .ok none

/-- A number that may be zero or less as one that is greater, or nothing. -/
def positive? (x : Option Double) : Option Double := x.filter fun x => !(x ≤ 0)

mutual

/-- A value inside the text of a list. -/
def shown : TagValue → Except Failure String
  | plain value => value.shown
  | items values => return "[" ++ ", ".intercalate (← shownAll values) ++ "]"
  | ratio numerator (.whole 1) => numerator.shown
  | ratio numerator denominator => return (← numerator.shown) ++ "/" ++ (← denominator.shown)
  | tag _ text => .ok text

def shownAll : List TagValue → Except Failure (List String)
  | [] => .ok []
  | value :: rest => return (← shown value) :: (← shownAll rest)

end

/-- A value as a text. -/
def asText : TagValue → Except Failure String
  | plain value => value.asText
  | value => value.shown

/-- What is left of a label without blanks, then zeros, then blanks again at its ends. -/
def trimLabel (cs : List Char) : List Char :=
  trimEnds isBlank (trimEnds (· = Char.ofNat 0) (trimEnds isBlank cs))

/-- The text that a value stands for, unless nothing is left of it. -/
def label? (value : TagValue) : Except Failure (Option String) :=
  match value with
  | plain .null => .ok none
  | value => do
    let text := trimLabel (← value.asText).toList
    return if text.isEmpty then none else some (String.ofList text)

end TagValue

/-- What a camera says about a picture. -/
structure Exif where
  make : Option String
  model : Option String
  timestamp : Option String
  iso : Option Double
  shutter : Option Double
  aperture : Option Double
  focalLength : Option Double

namespace Exif

/-- Nothing. -/
def empty : Exif := ⟨none, none, none, none, none, none, none⟩

/-- Whether nothing is said. -/
def isEmpty (e : Exif) : Bool :=
  e.make.isNone && e.model.isNone && e.timestamp.isNone && e.iso.isNone && e.shutter.isNone &&
    e.aperture.isNone && e.focalLength.isNone

/-- Tags by name. -/
abbrev Tags := List (String × TagValue)

/-- The value of a tag, or nothing. -/
def tagValue (tags : Tags) (name : String) : TagValue :=
  (tags.lookup name).getD (.plain .null)

/-- The value of a tag, or of another one when the first is not given. -/
def tagValueOr (tags : Tags) (name other : String) : TagValue :=
  let value := tagValue tags name
  if value.isGiven then value else tagValue tags other

/-- What seven values say. -/
def ofValues (make model timestamp iso shutter aperture focalLength : TagValue) :
    Except Failure Exif := do
  let positive (value : TagValue) : Except Failure (Option Double) := do
    return TagValue.positive? (← value.number?)
  return ⟨← make.label?, ← model.label?, ← timestamp.label?, ← positive iso, ← positive shutter,
    ← positive aperture, ← positive focalLength⟩

/-- What the tags of a picture say. -/
def ofTags (tags : Tags) : Except Failure Exif :=
  ofValues (tagValue tags "Image Make") (tagValue tags "Image Model")
    (tagValueOr tags "EXIF DateTimeOriginal" "Image DateTime")
    (tagValueOr tags "EXIF ISOSpeedRatings" "EXIF PhotographicSensitivity")
    (tagValue tags "EXIF ExposureTime") (tagValue tags "EXIF FNumber")
    (tagValue tags "EXIF FocalLength")

end Exif

end Darkroom
