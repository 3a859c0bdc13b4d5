import Darkroom.Text.LetterCase
import Darkroom.Yaml.Plain

/-!
# The meaning of scalars

The meanings that tags have, and the values of texts under them: flags, numbers to several bases,
bytes, days and moments. A text that does not fit its tag has no value.

## Main definitions

* `Yaml.CoreType`: The meanings that tags have.
* `Yaml.scalarValue`: The value of a text.
* `Yaml.wholeValue`, `Yaml.realValue`, `Yaml.momentValue`, …: The values of single meanings.
-/

namespace Darkroom

namespace Yaml

/-- What a tag can make of a node. -/
inductive CoreType where
  | null
  | flag
  | whole
  | real
  | bytes
  | moment
  | text
  | items
  | table
  | set
  | pairs
  deriving DecidableEq, Repr

namespace CoreType

/-- The tags with a meaning. -/
def tags : List (String × CoreType) :=
  [("null", null), ("bool", flag), ("int", whole), ("float", real), ("binary", bytes),
    ("timestamp", moment), ("str", text), ("seq", items), ("map", table), ("set", set),
    ("omap", pairs), ("pairs", pairs)]

/-- The meaning of a tag. -/
def ofTag? (tag : String) : Option CoreType :=
  (tags.find? fun (name, _) => coreTag name = tag).map Prod.snd

/-- Whether it is made of a text. -/
def isScalar : CoreType → Bool
  | items | table | set | pairs => false
  | _ => true

end CoreType

/-- The number of digits to base sixty between colons, each part read as `part` reads it. -/
def sexagesimal {α : Type} (part : List Char → Except Failure α) (cs : List Char) :
    Except Failure (List α) :=
  (cs.splitOn ':').mapM part

/-- A text as a number, in quotes inside failures. -/
def wholePart (base : Nat) (cs : List Char) : Except Failure Int :=
  readWhole base (Value.toWhole.clipped (quoted (String.ofList cs))) cs

def realPart (cs : List Char) : Except Failure Double :=
  match readReal? cs with
  | some x => .ok x
  | none => .error (.notReal (quoted (String.ofList cs)))

/-- A sign at the front of a number that may not be empty, and what follows it. -/
def splitSign (text : List Char) : Except Failure (Bool × List Char) :=
  let cs := text.filter (· ≠ '_')
  if cs.isEmpty then .error .wrongIndex else .ok (takeSign cs)

/-- A whole number: to base two or sixteen after a mark, to base eight after a zero, to base sixty
with colons, and otherwise to base ten. -/
def wholeValue (text : String) : Except Failure Int := do
  let (negative, cs) ← splitSign text.toList
  let size : Int ← match cs with
    | [] => .error .wrongIndex
    | ['0'] => .ok 0
    | '0' :: 'b' :: rest => wholePart 2 rest
    | '0' :: 'x' :: rest => wholePart 16 rest
    | '0' :: _ => wholePart 8 cs
    | _ =>
      if cs.contains ':' then
        (·.foldl (fun value part => 60 * value + part) 0) <$> sexagesimal (wholePart 10) cs
      else wholePart 10 cs
  return if negative then -size else size

/-- The sum of parts, the last counted once and every other sixty times as much as the next. -/
def sexagesimalSum (base : Nat) (sum : Double) : List Double → Except Failure Double
  | [] => .ok sum
  | part :: rest => do sexagesimalSum (60 * base) (sum + part * (← realOfWhole base)) rest

/-- The text of not-a-number, however it is written. -/
def isUndefined (text : String) : Bool :=
  let digits := (lowerCase text).toList.filter (· ≠ '_')
  String.ofList (takeSign digits).2 = ".nan"

/-- A real number. -/
def realValue (text : String) : Except Failure Double := do
  let (negative, cs) ← splitSign (lowerCase text).toList
  let size : Double ←
    if String.ofList cs = ".inf" then pure (Binary.infinite false)
    else if String.ofList cs = ".nan" then pure Binary.nan
    else if cs.contains ':' then do sexagesimalSum 1 0 (← sexagesimal realPart cs).reverse
    else realPart cs
  return if negative then -size else size

/-- The value of a character of base 64. -/
def sixBits? (c : Char) : Option Nat :=
  if 'A' ≤ c && c ≤ 'Z' then some (c.toNat - 65)
  else if 'a' ≤ c && c ≤ 'z' then some (c.toNat - 71)
  else if '0' ≤ c && c ≤ '9' then some (c.toNat + 4)
  else if c = '+' then some 62
  else if c = '/' then some 63
  else none

/-- The bytes of characters to base 64: `place` characters of a group of four have been seen, with
`carried` bits left over and `marks` signs of its end. Other characters do not count. -/
def sixBitBytes : (place marks carried : Nat) → List Char → Option (List UInt8)
  | place, _, _, [] => if place = 0 then some [] else none
  | place, marks, carried, c :: rest =>
    if c = '=' then
      if place < 2 then sixBitBytes place marks carried rest
      else if 4 ≤ place + marks + 1 then some []
      else sixBitBytes place (marks + 1) carried rest
    else
      match sixBits? c with
      | none => sixBitBytes place marks carried rest
      | some bits =>
        let byte (n : Nat) (tail : Option (List UInt8)) : Option (List UInt8) :=
          tail.map (UInt8.ofNat n :: ·)
        match place with
        | 0 => sixBitBytes 1 0 bits rest
        | 1 => byte (4 * carried + bits / 16) (sixBitBytes 2 0 (bits % 16) rest)
        | 2 => byte (16 * carried + bits / 4) (sixBitBytes 3 0 (bits % 4) rest)
        | _ => byte (64 * carried + bits) (sixBitBytes 0 0 0 rest)

/-- Bytes that are written to base 64. -/
def bytesValue (text : String) : Except Failure ByteArray :=
  if !text.toList.all fun c => c.toNat < 128 then .error .unconstructibleDocument
  else
    match sixBitBytes 0 0 0 text.toList with
    | some bytes => .ok ⟨bytes.toArray⟩
    | none => .error .unconstructibleDocument

/-- Refuses a day that no calendar has. -/
def checkDay (d : Day) : Except Failure Unit :=
  if d.year = 0 then .error (.outsideCalendar .year)
  else if d.month = 0 || 12 < d.month then .error (.outsideCalendar .month)
  else if !d.isValid then .error (.outsideCalendar .day)
  else .ok ()

/-- Refuses a time that no day has. -/
def checkTime (hour minute second : Nat) : Except Failure Unit :=
  if 24 ≤ hour then .error (.outsideCalendar .hour)
  else if 60 ≤ minute then .error (.outsideCalendar .minute)
  else if 60 ≤ second then .error (.outsideCalendar .second)
  else .ok ()

/-- The first six places of a fraction of a second. -/
def microseconds (places : List Char) : Nat :=
  let six := (places ++ List.replicate 6 '0').take 6
  digitsValue 10 (six.map fun c => c.toNat - 48)

/-- A distance from universal time in minutes, which has to be less than a day. -/
def zoneOffset : Bool × Nat × Nat → Except Failure Int
  | (negative, hours, minutes) =>
    let size : Int := 60 * hours + minutes
    let offset := if negative then -size else size
    if 1440 ≤ size then .error (.distantZone (Value.shownDistance offset)) else .ok offset

/-- A day or a moment. A line feed after it does not matter. -/
def momentValue (text : String) : Except Failure Value := do
  let cs := text.toList
  let cs := if cs.getLast? = some '\n' then cs.dropLast else cs
  match readMoment? cs with
  | none => .error .wrongAttribute
  | some ⟨day, none, _⟩ =>
    checkDay day
    return .day day
  | some ⟨day, some (hour, minute, second, places), zone⟩ =>
    let offset ← zone.mapM zoneOffset
    checkDay day
    checkTime hour minute second
    return .moment ⟨day, hour, minute, second, microseconds places, offset⟩

/-- What a flag's text says. -/
def flagValue (text : String) : Except Failure Bool :=
  match flagWords.lookup (lowerCase text) with
  | some b => .ok b
  | none => .error (.missingKey (quoted (lowerCase text)))

/-- The value of a text as a tag means it. -/
def scalarValue : CoreType → String → Except Failure Value
  | .null, _ => .ok .null
  | .flag, text => .flag <$> flagValue text
  | .whole, text => .whole <$> wholeValue text
  | .real, text => .real <$> realValue text
  | .bytes, text => .bytes <$> bytesValue text
  | .moment, text => momentValue text
  | .text, text => .ok (.text text)
  | _, _ => .error .unconstructibleDocument

end Yaml

end Darkroom
