import Darkroom.Value.Cast

/-!
# Plain scalars

What a scalar without quotes means, by its text alone: a flag, a whole or real number, a day or a
moment, nothing, or just a text. Numbers may be grouped by underscores, whole ones may be written
to base two, eight or sixteen, and colons join digits to base sixty.

## Main definitions

* `Yaml.coreTag`: The full name of a tag that documents know without a directive.
* `Yaml.plainTag`: The tag of a plain scalar.
* `Yaml.matchesInt`, `Yaml.matchesFloat`, `Yaml.readMoment?`: The shapes of numbers and moments.
-/

namespace Darkroom

namespace Yaml

/-- The full name of a tag that documents know without a directive. -/
def coreTag (name : String) : String := "tag:yaml.org,2002:" ++ name

/-- The texts of flags, in small letters, with what they mean. -/
def flagWords : List (String × Bool) :=
  [("yes", true), ("no", false), ("true", true), ("false", false), ("on", true), ("off", false)]

/-- Whether a text is a word in small letters, in capitals, or with a first capital. -/
def isWordLike (word text : String) : Bool :=
  text = word || text = word.map Char.toUpper || text = word.capitalize

/-- A plain digit below a bound. -/
def isDigitBelow (bound : Nat) (c : Char) : Bool := '0' ≤ c && c.toNat < 48 + bound

def isDigit (c : Char) : Bool := isDigitBelow 10 c

def isDigitOrMark (bound : Nat) (c : Char) : Bool := isDigitBelow bound c || c = '_'

/-- What follows a sign, if there is one. -/
def unsignedPart : List Char → List Char
  | c :: rest => if c = '-' || c = '+' then rest else c :: rest
  | [] => []

/-- Whether characters are one or more groups of a colon and a number below sixty. -/
def isSexagesimalTail : List Char → Bool
  | [':', a] => isDigit a
  | ':' :: a :: ':' :: rest => isDigit a && isSexagesimalTail (':' :: rest)
  | [':', a, b] => isDigitBelow 6 a && isDigit b
  | ':' :: a :: b :: rest => isDigitBelow 6 a && isDigit b && isSexagesimalTail rest
  | _ => false

/-- Whether a text has the shape of a whole number. -/
def matchesInt (text : List Char) : Bool :=
  let body := unsignedPart text
  match body with
  | '0' :: 'b' :: rest => !rest.isEmpty && rest.all (isDigitOrMark 2)
  | '0' :: 'x' :: rest =>
    !rest.isEmpty && rest.all fun c => (digitOf? c).any (· < 16) || c = '_'
  | ['0'] => true
  | '0' :: rest => rest.all (isDigitOrMark 8)
  | c :: rest =>
    isDigit c &&
      (let tail := rest.dropWhile (isDigitOrMark 10)
      tail.isEmpty || isSexagesimalTail tail)
  | [] => false

/-- Whether characters are an exponent, or nothing. -/
def isPower : List Char → Bool
  | [] => true
  | e :: sign :: rest =>
    (e = 'e' || e = 'E') && (sign = '-' || sign = '+') && !rest.isEmpty && rest.all isDigit
  | _ => false

/-- Whether a text has the shape of a real number: with a point, and with a sign before every
exponent. -/
def matchesFloat (text : List Char) : Bool :=
  let body := unsignedPart text
  let fromDigits : Bool :=
    match body with
    | c :: rest =>
      isDigit c &&
        (let tail := rest.dropWhile (isDigitOrMark 10)
        match tail with
        | '.' :: places => isPower (places.dropWhile (isDigitOrMark 10))
        | ':' :: _ =>
          let groups := tail.takeWhile (· ≠ '.')
          let places := tail.dropWhile (· ≠ '.')
          isSexagesimalTail groups && !places.isEmpty && (places.drop 1).all (isDigitOrMark 10)
        | _ => false)
    | [] => false
  let fromPoint : Bool :=
    match text with
    | '.' :: c :: rest => isDigit c && isPower (rest.dropWhile (isDigitOrMark 10))
    | _ => false
  let infinite := [".inf", ".Inf", ".INF"].contains (String.ofList body)
  let undefined := [".nan", ".NaN", ".NAN"].contains (String.ofList text)
  fromDigits || fromPoint || infinite || undefined

/-- The parts of a moment as they are written. -/
structure WrittenMoment where
  day : Day
  time : Option (Nat × Nat × Nat × List Char)
  zone : Option (Bool × Nat × Nat)
  deriving DecidableEq, Repr

/-- Between `least` and `most` plain digits at the front as a number, and what follows. -/
def takeNumber? (least most : Nat) (cs : List Char) : Option (Nat × List Char) :=
  let digits := (cs.take most).takeWhile isDigit
  if least ≤ digits.length then
    some (digitsValue 10 (digits.map fun c => c.toNat - 48), cs.drop digits.length)
  else none

/-- What follows a character at the front. -/
def expect? (c : Char) : List Char → Option (List Char)
  | x :: rest => if x = c then some rest else none
  | [] => none

/-- A day at the front, and what follows. -/
def takeDay? (cs : List Char) : Option (Day × List Char) := do
  let (year, cs) ← takeNumber? 4 4 cs
  let cs ← expect? '-' cs
  let (month, cs) ← takeNumber? 1 2 cs
  let cs ← expect? '-' cs
  let (day, cs) ← takeNumber? 1 2 cs
  return (⟨year, month, day⟩, cs)

/-- The distance from universal time at the end of a moment: whether it is negative, hours and
minutes. -/
def takeZone? (cs : List Char) : Option (Option (Bool × Nat × Nat)) :=
  let body := cs.dropWhile fun c => c = ' ' || c = '\t'
  match body with
  | [] => if cs.isEmpty then some none else none
  | ['Z'] => some (some (false, 0, 0))
  | sign :: rest =>
    if sign = '+' || sign = '-' then
      match takeNumber? 1 2 rest with
      | some (hours, []) => some (some (sign = '-', hours, 0))
      | some (hours, ':' :: more) =>
        match takeNumber? 2 2 more with
        | some (minutes, []) => some (some (sign = '-', hours, minutes))
        | _ => none
      | _ => none
    else none

/-- The time of a moment after its day. -/
def takeTime? (day : Day) (cs : List Char) : Option WrittenMoment := do
  let blanks := cs.takeWhile fun c => c = ' ' || c = '\t'
  let cs ← match cs with
    | c :: rest =>
      if c = 'T' || c = 't' then some rest
      else if blanks.isEmpty then none
      else some (cs.drop blanks.length)
    | [] => none
  let (hour, cs) ← takeNumber? 1 2 cs
  let cs ← expect? ':' cs
  let (minute, cs) ← takeNumber? 2 2 cs
  let cs ← expect? ':' cs
  let (second, cs) ← takeNumber? 2 2 cs
  let (fraction, cs) := match cs with
    | '.' :: rest => rest.span isDigit
    | cs => ([], cs)
  let zone ← takeZone? cs
  return ⟨day, some (hour, minute, second, fraction), zone⟩

/-- A day or a moment. A day alone may also have months and days of one digit. -/
def readMoment? (cs : List Char) : Option WrittenMoment := do
  let (day, rest) ← takeDay? cs
  if rest.isEmpty then return ⟨day, none, none⟩ else takeTime? day rest

/-- Whether a plain text is a day or a moment: a day alone has all its digits. -/
def matchesMoment (cs : List Char) : Bool :=
  match readMoment? cs with
  | some m => m.time.isSome || cs.length = 10
  | none => false

/-- The tag of a plain scalar. A line feed at its end does not count, unless there is nothing
else. -/
def plainTag (text : String) : String :=
  let cs := text.toList
  let cs := if cs.getLast? = some '\n' && cs ≠ ['\n'] then cs.dropLast else cs
  let body := String.ofList cs
  coreTag <|
    if flagWords.any fun (word, _) => isWordLike word body then "bool"
    else if matchesFloat cs then "float"
    else if matchesInt cs then "int"
    else if body = "<<" then "merge"
    else if body = "" || body = "~" || isWordLike "null" body then "null"
    else if matchesMoment cs then "timestamp"
    else if body = "=" then "value"
    else if body = "!" || body = "&" || body = "*" then "yaml"
    else "str"

end Yaml

end Darkroom
