import Darkroom.Failure

/-!
# A place in a document

The characters that are left of a document, and where they stand: the number of characters before
them, the line and the column. Columns decide how a document is nested, lines and distances decide
how long a key may wait for its colon.

The end of a document is seen as the character NUL, which no document contains. Where a document
cannot be read on, asking for the next character fails; and one that is never asked for does no
harm. That is why the operations here look no further ahead than they have to: `Lexing.reach` is
the question whether a character is there, and everything that looks at one asks it first.

## Main definitions

* `Yaml.Cursor`: A place in a document.
* `Yaml.Lexing`: Reading that moves the place or fails.
* `Yaml.Lexing.reach`: Asks for a character ahead.
* `Yaml.isBreak`, `Yaml.isGap`: Line breaks, and what separates tokens.
-/

namespace Darkroom

namespace Yaml

/-- What is seen at the end of a document. -/
def nul : Char := Char.ofNat 0

/-- The mark that may stand before a document. -/
def byteOrderMark : Char := Char.ofNat 0xFEFF

/-- Line breaks. -/
def isBreak (c : Char) : Bool :=
  c = '\n' || c = '\r' || c.toNat = 0x85 || c.toNat = 0x2028 || c.toNat = 0x2029

/-- The end of a line. -/
def isLineEnd (c : Char) : Bool := c = nul || isBreak c

/-- The end of a line, or a space. -/
def isSpaceOrEnd (c : Char) : Bool := c = ' ' || isLineEnd c

/-- The end of a line, or a blank: what separates tokens. -/
def isGap (c : Char) : Bool := c = ' ' || c = '\t' || isLineEnd c

/-- Plain letters, digits, the hyphen and the underscore: what names consist of. -/
def isNameChar (c : Char) : Bool :=
  ('0' ≤ c && c ≤ '9') || ('A' ≤ c && c ≤ 'Z') || ('a' ≤ c && c ≤ 'z') || c = '-' || c = '_'

/-- A place in a document. The failure is that of the characters that cannot be read any more. -/
structure Cursor where
  rest : List Char
  failure : Option Failure
  index : Nat
  line : Nat
  column : Nat

namespace Cursor

/-- The character `k` places ahead. -/
def peek (c : Cursor) (k : Nat) : Char := c.rest.getD k nul

/-- The place after the next character. -/
def next (c : Cursor) : Cursor :=
  match c.rest with
  | [] => c
  | x :: rest =>
    let c := { c with rest, index := c.index + 1 }
    if isBreak x && !(x = '\r' && rest.head? = some '\n') then
      { c with line := c.line + 1, column := 0 }
    else if x = byteOrderMark then c
    else { c with column := c.column + 1 }

/-- The place `n` characters ahead. -/
def advance : Nat → Cursor → Cursor
  | 0, c => c
  | n + 1, c => advance n c.next

end Cursor

/-- Reading that moves the place or fails. -/
abbrev Lexing := StateT Cursor (Except Failure)

namespace Lexing

/-- A document that cannot be taken apart into tokens. -/
def fail {α : Type} : Lexing α := throw .unscannableDocument

/-- Asks for the character `k` places ahead. At the end of a document there is always one more. -/
def reach (k : Nat) : Lexing Unit := do
  let c ← get
  match c.failure with
  | some failure => if (c.rest.drop k).isEmpty then throw failure
  | none => pure ()

/-- The character `k` places ahead. -/
def peekAt (k : Nat) : Lexing Char := do
  reach k
  return (← get).peek k

/-- The next character. -/
def peek : Lexing Char := peekAt 0

/-- Moves on by `n` characters, up to a character that has to be there. -/
def skip (n : Nat) : Lexing Unit := do
  reach n
  modify (Cursor.advance n)

/-- Takes the characters at the front that belong to a class. -/
def takeWhile (p : Char → Bool) : Lexing (List Char) := do
  let taken := (← get).rest.takeWhile p
  skip taken.length
  return taken

/-- Skips the characters at the front that belong to a class. -/
def skipWhile (p : Char → Bool) : Lexing Unit := do let _ ← takeWhile p

/-- Skips what is left of a line, but not its break. -/
def skipLine : Lexing Unit := skipWhile fun c => !isLineEnd c

/-- Takes a line break, if there is one, and gives what it stands for: a line feed, or the line or
paragraph separator itself. -/
def lineBreak : Lexing (List Char) := do
  let c ← peek
  if c = '\n' || c = '\r' || c.toNat = 0x85 then
    let next ← peekAt 1
    skip (if c = '\r' && next = '\n' then 2 else 1)
    return ['\n']
  else if isBreak c then
    skip 1
    return [c]
  else return []

/-- Whether a line that separates documents starts at the place. -/
def atSeparator : Lexing Bool := do
  reach 2
  let mark := (← get).rest.take 3
  if mark = ['-', '-', '-'] || mark = ['.', '.', '.'] then return isGap (← peekAt 3)
  else return false

/-- Skips spaces and a comment, up to the end of the line and over its break. -/
def finishLine : Lexing Unit := do
  skipWhile (· = ' ')
  if (← peek) = '#' then skipLine
  if !isLineEnd (← peek) then fail
  let _ ← lineBreak

end Lexing

end Yaml

end Darkroom
