import Darkroom.Value.Cast

/-!
# Reading JSON

JSON text as a value. Numbers keep their kind: one written with a point or an exponent is real, all
others are whole and of any size. The words `NaN`, `Infinity` and `-Infinity` are numbers. An
object that repeats a key keeps the key's first place and its last value.

The reader works on the characters that are left and hands back what follows the value. Its fuel
is twice the length of the text, which is enough because of two steps at least one takes a
character. Every list and every object inside another takes room, and a text that is nested deeper
than there is room for is given up as soon as it shows, whatever follows.

## Main definitions

* `Json.Flaw`: Why a text is not read.
* `Json.read`: The value of a text that holds one JSON value and blanks, if there is room for it.
* `Json.read?`: The same with as much room as it takes.
-/

namespace Darkroom

namespace Json

/-- Blanks between the parts of a text. -/
def isGap (c : Char) : Bool := c = ' ' || c = '\t' || c = '\n' || c = '\r'

/-- What follows the blanks at the front. -/
def skipGap (cs : List Char) : List Char := cs.dropWhile isGap

/-- What follows a word at the front. -/
def after? (word : String) (cs : List Char) : Option (List Char) :=
  let letters := word.toList
  if letters.isPrefixOf cs then some (cs.drop letters.length) else none

/-- The number that four digits to base sixteen denote, and what follows. -/
def readUnit? : List Char → Option (Nat × List Char)
  | a :: b :: c :: d :: rest =>
    match [a, b, c, d].mapM fun x => (digitOf? x).filter (· < 16) with
    | some digits => some (digitsValue 16 digits, rest)
    | none => none
  | _ => none

/-- The second half of a pair of surrogates that follows as an escape of its own, and what follows
it. -/
def readLow? : List Char → Option (Nat × List Char)
  | '\\' :: 'u' :: more => (readUnit? more).filter fun low => 0xDC00 ≤ low.1 && low.1 < 0xE000
  | _ => none

/-- The character that an escape of four digits denotes, and what follows. A pair of surrogates is
one character. -/
def readEscapedUnit? (cs : List Char) : Option (Char × List Char) :=
  match readUnit? cs with
  | none => none
  | some (high, rest) =>
    if 0xD800 ≤ high && high < 0xDC00 then
      match readLow? rest with
      | some (low, tail) =>
        some (Char.ofNat (0x10000 + (high - 0xD800) * 0x400 + (low - 0xDC00)), tail)
      | none => some (charOfCode high, rest)
    else some (charOfCode high, rest)

/-- The character that a one-letter escape denotes. -/
def simpleEscape? : Char → Option Char
  | '"' => some '"'
  | '\\' => some '\\'
  | '/' => some '/'
  | 'b' => some (Char.ofNat 8)
  | 'f' => some (Char.ofNat 12)
  | 'n' => some '\n'
  | 'r' => some '\r'
  | 't' => some '\t'
  | _ => none

/-- The text up to the closing quote, and what follows; `taken` holds the characters so far, the
last one first. -/
def readText? : Nat → List Char → List Char → Option (String × List Char)
  | 0, _, _ => none
  | _ + 1, _, [] => none
  | fuel + 1, taken, c :: rest =>
    if c = '"' then some (String.ofList taken.reverse, rest)
    else if c = '\\' then
      match rest with
      | 'u' :: more =>
        match readEscapedUnit? more with
        | some (x, tail) => readText? fuel (x :: taken) tail
        | none => none
      | e :: more =>
        match simpleEscape? e with
        | some x => readText? fuel (x :: taken) more
        | none => none
      | [] => none
    else if c.toNat < 32 then none
    else readText? fuel (c :: taken) rest

/-- Plain digits at the front, and what follows. -/
def takeDigits (cs : List Char) : List Char × List Char :=
  cs.span fun c => '0' ≤ c && c ≤ '9'

/-- The value of a run of plain digits. -/
def plainValue (digits : List Char) : Nat := ofDigits (digits.map fun c => c.toNat - 48)

/-- The digits after a point, when there are any, and what follows. -/
def takePlaces : List Char → Option (List Char) × List Char
  | '.' :: rest =>
    match takeDigits rest with
    | ([], _) => (none, '.' :: rest)
    | (digits, tail) => (some digits, tail)
  | cs => (none, cs)

/-- The exponent, when there is one, and what follows. -/
def takePower : List Char → Option Int × List Char
  | c :: rest =>
    if c = 'e' || c = 'E' then
      let (negative, body) := takeSign rest
      match takeDigits body with
      | ([], _) => (none, c :: rest)
      | (digits, tail) => (some (signed negative (plainValue digits)), tail)
    else (none, c :: rest)
  | [] => (none, [])

/-- Whether there is a minus at the front, and what follows. -/
def takeMinus : List Char → Bool × List Char
  | '-' :: rest => (true, rest)
  | cs => (false, cs)

/-- The digits before a point, and what follows. Nothing else comes after a zero at the front. -/
def takeWhole : List Char → List Char × List Char
  | '0' :: rest => (['0'], rest)
  | cs => takeDigits cs

/-- A number and what follows. -/
def readNumber? (cs : List Char) : Option (Value × List Char) :=
  let (negative, body) := takeMinus cs
  let (whole, rest) := takeWhole body
  if whole.isEmpty then none
  else
    let (places, rest) := takePlaces rest
    let (power, rest) := takePower rest
    match places, power with
    | none, none =>
      if digitLimit < whole.length then none
      else some (.whole (signed negative (plainValue whole)), rest)
    | _, _ =>
      let places := places.getD []
      let decimal : Decimal :=
        ⟨plainValue (whole ++ places), power.getD 0 - places.length⟩
      some (.real (Binary.ofDecimal negative decimal), rest)

/-- The words that are values. -/
def words : List (String × Value) :=
  [("null", .null), ("true", .flag true), ("false", .flag false), ("NaN", .real .nan),
    ("Infinity", .real (.infinite false)), ("-Infinity", .real (.infinite true))]

/-- A word or a number, and what follows. -/
def readScalar? (cs : List Char) : Option (Value × List Char) :=
  match words.findSome? fun entry => (after? entry.1 cs).map (entry.2, ·) with
  | some found => some found
  | none => readNumber? cs

/-- Why a text is not read: it is no JSON, or some part of it, a list or an object, stands too deep
inside others. -/
inductive Flaw where
  | malformed
  | tooDeep (part : String)
  deriving DecidableEq, Repr

/-- The room that is left inside a part. -/
def inside (part : String) : Nat → Except Flaw Nat
  | 0 => .error (.tooDeep part)
  | room + 1 => .ok room

/-- What has been read, if anything. -/
def found {α : Type} (read : Option α) : Except Flaw α := read.elim (.error .malformed) .ok

mutual

/-- A value and what follows it. -/
def readValue : Nat → Nat → List Char → Except Flaw (Value × List Char)
  | 0, _, _ => .error .malformed
  | fuel + 1, _, '"' :: rest =>
    found ((readText? (fuel + 1) [] rest).map fun (s, tail) => (.text s, tail))
  | fuel + 1, room, '[' :: rest => do
    let room ← inside "array" room
    match skipGap rest with
    | ']' :: tail => return (.items [], tail)
    | body => readItems fuel room [] body
  | fuel + 1, room, '\x7b' :: rest => do
    let room ← inside "object" room
    match skipGap rest with
    | '\x7d' :: tail => return (.table [], tail)
    | body => readEntries fuel room [] body
  | _ + 1, _, cs => found (readScalar? cs)

/-- The items up to the closing bracket; `taken` holds the items so far, the last one first. -/
def readItems : Nat → Nat → List Value → List Char → Except Flaw (Value × List Char)
  | 0, _, _, _ => .error .malformed
  | fuel + 1, room, taken, cs => do
    let (value, rest) ← readValue fuel room cs
    match skipGap rest with
    | ',' :: more => readItems fuel room (value :: taken) (skipGap more)
    | ']' :: tail => return (.items (value :: taken).reverse, tail)
    | _ => throw .malformed

/-- The entries up to the closing brace. -/
def readEntries : Nat → Nat → List (Value × Value) → List Char → Except Flaw (Value × List Char)
  | 0, _, _, _ => .error .malformed
  | fuel + 1, room, taken, '"' :: cs => do
    let (key, rest) ← found (readText? (fuel + 1) [] cs)
    match skipGap rest with
    | ':' :: more =>
      let (value, rest) ← readValue fuel room (skipGap more)
      let taken := Value.insert (.text key) value taken
      match skipGap rest with
      | ',' :: more => readEntries fuel room taken (skipGap more)
      | '\x7d' :: tail => return (.table taken, tail)
      | _ => throw .malformed
    | _ => throw .malformed
  | _ + 1, _, _, _ => .error .malformed

end

/-- The value of a text that holds one value, with blanks around it, if there is room for it. -/
def read (room : Nat) (s : String) : Except Flaw Value := do
  let cs := s.toList
  let (value, rest) ← readValue (2 * cs.length + 2) room (skipGap cs)
  if (skipGap rest).isEmpty then return value else throw .malformed

/-- The value of a text that holds one value. No text is nested deeper than it is long. -/
def read? (s : String) : Option Value := (read s.length s).toOption

end Json

end Darkroom
