import Darkroom.Text.Blank
import Darkroom.Text.DecimalDigit
import Darkroom.Value.Shown

/-!
# Casts

What a value is worth as a real number, as a whole number, as a flag. Texts are read as numbers
are written by hand: blanks around them do not matter, digits may come from any script and may be
grouped by single underscores. Nothing else is guessed: a text that is not such a number is a
failure that shows the text.

## Main definitions

* `readWhole`: The whole number that characters denote to a base.
* `readReal`: The real number that characters denote.
* `Value.toReal`, `Value.toWhole`: The number that a value is worth.
-/

namespace Darkroom

/-- The characters of a number: digits of any script become plain digits, blanks at the ends are
dropped, and every other character beyond ASCII becomes one that no number has. -/
def numeral (cs : List Char) : List Char :=
  let plain (c : Char) : Char :=
    if c.toNat < 127 then c
    else if isBlank c then ' '
    else match digitValue? c with
      | some digit => Char.ofNat (48 + digit)
      | none => '?'
  trimEnds isPlainBlank (cs.map plain)

/-- The value of a plain digit or letter as a digit. -/
def digitOf? (c : Char) : Option Nat :=
  if '0' ≤ c && c ≤ '9' then some (c.toNat - 48)
  else if 'a' ≤ c && c ≤ 'z' then some (c.toNat - 87)
  else if 'A' ≤ c && c ≤ 'Z' then some (c.toNat - 55)
  else none

/-- The digits to a base at the front, with single underscores between them, and what follows. -/
def spanDigits (base : Nat) (cs : List Char) : List Nat × List Char := go false cs
where
  isDigit (c : Char) : Bool := (digitOf? c).any (· < base)
  go (afterDigit : Bool) : List Char → List Nat × List Char
    | [] => ([], [])
    | c :: rest =>
      match (digitOf? c).filter (· < base) with
      | some digit =>
        let (digits, tail) := go true rest
        (digit :: digits, tail)
      | none =>
        if c = '_' && afterDigit && rest.head?.any isDigit then go false rest
        else ([], c :: rest)

/-- A sign at the front: whether it is a minus, and what follows. -/
def takeSign : List Char → Bool × List Char
  | '+' :: rest => (false, rest)
  | '-' :: rest => (true, rest)
  | cs => (false, cs)

/-- The value of digits to a base. -/
def digitsValue (base : Nat) (digits : List Nat) : Nat :=
  digits.foldl (fun value digit => base * value + digit) 0

/-- Whether writing to a base takes no more work than the number has bits. -/
def isPowerOfTwo (base : Nat) : Bool := base = 2 || base = 4 || base = 8 || base = 16 || base = 32

/-- What follows the mark of a base, if there is one: `0b`, `0o` or `0x`, perhaps with an
underscore. -/
def dropBaseMark (base : Nat) : List Char → List Char
  | '0' :: mark :: rest =>
    let isMark := (base = 2 && (mark = 'b' || mark = 'B')) ||
      (base = 8 && (mark = 'o' || mark = 'O')) || (base = 16 && (mark = 'x' || mark = 'X'))
    if !isMark then '0' :: mark :: rest
    else match rest with
      | '_' :: digits => digits
      | digits => digits
  | cs => cs

/-- The whole number that characters denote to a base; `shown` is how a failure shows them. Too many
digits are refused whatever follows them, unless it is an underscore that joins nothing. -/
def readWhole (base : Nat) (shown : String) (cs : List Char) : Except Failure Int :=
  let (negative, body) := takeSign (numeral cs)
  let (digits, rest) := spanDigits base (dropBaseMark base body)
  let tooMany := digitLimit < digits.length && !isPowerOfTwo base
  if tooMany && rest.head? ≠ some '_' then .error (.tooManyDigits digits.length)
  else if digits.isEmpty || !rest.isEmpty then .error (.notWhole base shown)
  else .ok (signed negative (digitsValue base digits))

/-- An exponent after the letter `e`, and what follows; without digits there is none. -/
def takeExponent : List Char → Int × List Char
  | c :: rest =>
    if c = 'e' || c = 'E' then
      let (negative, body) := takeSign rest
      let (digits, tail) := spanDigits 10 body
      if digits.isEmpty then (0, c :: rest) else (signed negative (ofDigits digits), tail)
    else (0, c :: rest)
  | [] => (0, [])

/-- The decimal that characters denote: digits, a point between or beside them, an exponent. -/
def readDecimal? (cs : List Char) : Option Decimal :=
  let (whole, rest) := spanDigits 10 cs
  let (places, rest) := match rest with
    | '.' :: more => spanDigits 10 more
    | _ => ([], rest)
  let (exponent, rest) := takeExponent rest
  if (whole.isEmpty && places.isEmpty) || !rest.isEmpty then none
  else some ⟨ofDigits (whole ++ places), exponent - places.length⟩

/-- The real number that characters denote, the infinities and not-a-number included. -/
def readReal? (cs : List Char) : Option Double :=
  let (negative, body) := takeSign (numeral cs)
  let word := String.ofList (body.map Char.toLower)
  if word = "inf" || word = "infinity" then some (.infinite negative)
  else if word = "nan" then some .nan
  else (readDecimal? body).map (Binary.ofDecimal negative)

namespace Value

/-- The characters that bytes stand for in a number. Those beyond ASCII stand for none. -/
def bytesChars (data : ByteArray) : List Char :=
  data.toList.map fun b => if b.toNat < 127 then Char.ofNat b.toNat else '?'

/-- The real number that a value is worth. -/
def toReal : Value → Except Failure Double
  | flag b => .ok (if b then 1 else 0)
  | whole n => realOfWhole n
  | real x => .ok x
  | text s => match readReal? s.toList with
    | some x => .ok x
    | none => .error (.notReal (quoted s))
  | bytes data => match readReal? (bytesChars data) with
    | some x => .ok x
    | none => .error (.notReal (quotedBytes data))
  | _ => .error .wrongType

/-- The whole number that a value is worth; real numbers lose their fraction. -/
def toWhole : Value → Except Failure Int
  | flag b => .ok (if b then 1 else 0)
  | whole n => .ok n
  | real x => match x.truncate? with
    | some n => .ok n
    | none => .error (if x.isNaN then .nanToWhole else .infiniteToWhole)
  | text s => readWhole 10 (clipped (quoted s)) s.toList
  | bytes data =>
    readWhole 10 (clipped (quotedBytes data)) (bytesChars data)
  | _ => .error .wrongType
where
  /-- A failure shows at most 200 characters. -/
  clipped (shown : String) : String := String.ofList (shown.toList.take 200)

/-- The number that a value is, where only numbers will do. -/
def toNumber (value : Value) : Except Failure Number :=
  match value.number? with
  | some number => .ok number
  | none => .error .wrongType

/-- The parts of a value, where only values with parts will do. -/
def toElements (value : Value) : Except Failure (List Value) :=
  match value.elements? with
  | some values => .ok values
  | none => .error .wrongType

end Value

end Darkroom
