import Darkroom.Value.Cast
import Darkroom.Yaml.Token

/-!
# Scalars, names and directives

How the parts of a document that carry text are read: plain and quoted scalars, blocks of literal
and folded lines, anchors, tags and directives. A line break inside a scalar folds into a space,
and further breaks are kept.

Loops are bounded by the number of characters that are left, since each turn takes at least one.

## Main definitions

* `Yaml.readPlain`, `Yaml.readQuoted`, `Yaml.readBlock`: The text of a scalar.
* `Yaml.readName`, `Yaml.readTag`, `Yaml.readDirective`: Names, tags and directives.
-/

namespace Darkroom

namespace Yaml

open Lexing

/-- As many turns as there are characters left. -/
def turns : Lexing Nat := return (← get).rest.length + 1

/-! ## Plain scalars -/

/-- Whether a plain scalar ends before the character `k` places ahead. -/
def endsPlain (inFlow : Bool) (c : Cursor) (k : Nat) : Bool :=
  let x := c.peek k
  isGap x ||
    (x = ':' && (isGap (c.peek (k + 1)) ||
        (inFlow && ",[]\x7b\x7d".toList.contains (c.peek (k + 1))))) ||
    (inFlow && ",?[]\x7b\x7d".toList.contains x)

/-- The number of characters of a plain scalar before a blank or an indicator. -/
def plainLength (inFlow : Bool) (c : Cursor) : Nat → Nat → Nat
  | 0, k => k
  | fuel + 1, k => if endsPlain inFlow c k then k else plainLength inFlow c fuel (k + 1)

/-- The breaks and leading spaces of the lines after a break inside a plain scalar, or nothing when
a document separator follows. -/
def plainBreaks : Nat → List Char → Lexing (Option (List Char))
  | 0, breaks => return some breaks
  | fuel + 1, breaks => do
    let c ← peek
    if c = ' ' then skip 1; plainBreaks fuel breaks
    else if isBreak c then
      let b ← lineBreak
      if ← atSeparator then return none
      plainBreaks fuel (breaks ++ b)
    else return some breaks

/-- What a break and the breaks after it fold into. -/
def folded (first breaks : List Char) : List Char :=
  if first ≠ ['\n'] then first ++ breaks
  else if breaks.isEmpty then [' ']
  else breaks

/-- The blanks between two parts of a plain scalar, and whether a line was ended. -/
def plainSpaces : Lexing (List Char × Bool) := do
  let spaces ← takeWhile (· = ' ')
  if isBreak (← peek) then
    let first ← lineBreak
    if ← atSeparator then return ([], true)
    match ← plainBreaks (← turns) [] with
    | none => return ([], true)
    | some breaks => return (folded first breaks, true)
  else return (spaces, false)

/-- The parts of a plain scalar; `indent` is the least column of a further line. Tells also whether
the scalar ended after a line break. -/
def plainParts (inFlow : Bool) (indent : Int) :
    Nat → List Char → List Char → Bool → Lexing (List Char × Bool)
  | 0, text, _, ended => return (text, ended)
  | fuel + 1, text, spaces, ended => do
    -- After blanks this is a comment. A first part never begins with it.
    if (← peek) = '#' then return (text, ended)
    let c ← get
    let length := plainLength inFlow c c.rest.length 0
    reach (if c.peek length = ':' then length + 1 else length)
    if length = 0 then return (text, ended)
    let text := text ++ spaces ++ c.rest.take length
    skip length
    let (spaces, ended) ← plainSpaces
    let c ← get
    if spaces.isEmpty || c.peek 0 = '#' || (!inFlow && c.column < indent) then return (text, ended)
    plainParts inFlow indent fuel text spaces ended

/-- A plain scalar, and whether it ended after a line break. -/
def readPlain (inFlow : Bool) (indent : Int) : Lexing (String × Bool) := do
  let (text, ended) ← plainParts inFlow (indent + 1) (← turns) [] [] false
  return (String.ofList text, ended)

/-! ## Quoted scalars -/

/-- Blanks and breaks after a break inside quotes. A document separator may not follow. -/
def quotedBreaks : Nat → List Char → Lexing (List Char)
  | 0, breaks => return breaks
  | fuel + 1, breaks => do
    if ← atSeparator then fail
    skipWhile fun c => c = ' ' || c = '\t'
    if isBreak (← peek) then quotedBreaks fuel (breaks ++ (← lineBreak)) else return breaks

/-- Blanks inside quotes, folded if they contain a break. -/
def quotedSpaces : Lexing (List Char) := do
  let blanks ← takeWhile fun c => c = ' ' || c = '\t'
  let c ← peek
  if c = nul then fail
  else if isBreak c then
    let first ← lineBreak
    return folded first (← quotedBreaks (← turns) [])
  else return blanks

/-- The character that an escape of one letter stands for. -/
def escapeLetter? (c : Char) : Option Nat :=
  match c with
  | '0' => some 0
  | 'a' => some 7
  | 'b' => some 8
  | 't' => some 9
  | '\t' => some 9
  | 'n' => some 10
  | 'v' => some 11
  | 'f' => some 12
  | 'r' => some 13
  | 'e' => some 27
  | ' ' => some 32
  | '"' => some 34
  | '\\' => some 92
  | '/' => some 47
  | 'N' => some 0x85
  | '_' => some 0xA0
  | 'L' => some 0x2028
  | 'P' => some 0x2029
  | _ => none

/-- The number of digits of an escape by code. -/
def escapeDigits? (c : Char) : Option Nat :=
  if c = 'x' then some 2 else if c = 'u' then some 4 else if c = 'U' then some 8 else none

/-- A number of `count` digits to base sixteen, without moving on. -/
def hexNumber (count : Nat) : Lexing Nat := do
  let digits ← (List.range count).mapM fun (k : Nat) => do
    match (digitOf? (← peekAt k)).filter (· < 16) with
    | some digit => return digit
    | none => fail
  return digitsValue 16 digits

/-- An escape after its backslash. -/
def readEscape : Lexing (List Char) := do
  let c ← peek
  match escapeLetter? c, escapeDigits? c with
  | some code, _ => skip 1; return [Char.ofNat code]
  | none, some count => do
    skip 1
    let code ← hexNumber count
    if 0x110000 ≤ code then throw (.noSuchCharacter code)
    skip count
    return [charOfCode code]
  | none, none =>
    if isBreak c then
      let _ ← lineBreak
      quotedBreaks (← turns) []
    else fail

/-- Characters inside quotes up to a blank or the closing quote. -/
def quotedText (double : Bool) : Nat → List Char → Lexing (List Char)
  | 0, text => return text
  | fuel + 1, text => do
    let part ← takeWhile fun c => !(c = '\'' || c = '"' || c = '\\' || isGap c)
    let text := text ++ part
    let c ← peek
    -- Between single quotes, two of them stand for one.
    if !double && c = '\'' then
      if (← peekAt 1) = '\'' then
        skip 2
        quotedText double fuel (text ++ ['\''])
      else return text
    else if (double && c = '\'') || (!double && (c = '"' || c = '\\')) then
      skip 1
      quotedText double fuel (text ++ [c])
    else if double && c = '\\' then
      skip 1
      quotedText double fuel (text ++ (← readEscape))
    else return text

/-- Text and blanks inside quotes up to the closing quote. -/
def quotedParts (double : Bool) (quote : Char) : Nat → List Char → Lexing (List Char)
  | 0, text => return text
  | fuel + 1, text => do
    if (← peek) = quote then return text
    let spaces ← quotedSpaces
    let part ← quotedText double (← turns) []
    quotedParts double quote fuel (text ++ spaces ++ part)

/-- A quoted scalar. -/
def readQuoted : Lexing String := do
  let quote ← peek
  let double := quote = '"'
  skip 1
  let first ← quotedText double (← turns) []
  let text ← quotedParts double quote (← turns) first
  skip 1
  return String.ofList text

/-! ## Blocks of lines -/

/-- What happens to the breaks at the end of a block. -/
inductive Chomping where
  | clip
  | strip
  | keep
  deriving DecidableEq, Repr

/-- A digit from one to nine that says how far a block is indented. -/
def indentDigit : Lexing (Option Nat) := do
  let c ← peek
  if '0' ≤ c && c ≤ '9' then
    if c = '0' then fail
    skip 1
    return some (c.toNat - 48)
  else return none

/-- A sign that says what happens to the breaks at the end. -/
def chompingSign : Lexing (Option Chomping) := do
  let c ← peek
  if c = '+' then skip 1; return some .keep
  else if c = '-' then skip 1; return some .strip
  else return none

/-- The sign and the digit after a block indicator, in either order. -/
def blockHeader : Lexing (Chomping × Option Nat) := do
  let header ← match ← chompingSign with
    | some chomping => do pure (chomping, ← indentDigit)
    | none =>
      match ← indentDigit with
      | some digit => do pure ((← chompingSign).getD .clip, some digit)
      | none => pure (.clip, none)
  if isSpaceOrEnd (← peek) then return header else fail

/-- Empty lines before a block, and the greatest column that their spaces reach. -/
def leadingLines : Nat → List Char → Nat → Lexing (List Char × Nat)
  | 0, breaks, deepest => return (breaks, deepest)
  | fuel + 1, breaks, deepest => do
    let c ← peek
    if c = ' ' then
      skip 1
      leadingLines fuel breaks (max deepest (← get).column)
    else if isBreak c then
      let b ← lineBreak
      leadingLines fuel (breaks ++ b) deepest
    else return (breaks, deepest)

/-- Skips spaces up to a column. -/
def skipIndent (indent : Nat) : Lexing Unit := do
  let c ← get
  skip ((c.rest.take (indent - c.column)).takeWhile (· = ' ')).length

/-- Empty lines inside a block. -/
def blockBreaks (indent : Nat) : Nat → List Char → Lexing (List Char)
  | 0, breaks => return breaks
  | fuel + 1, breaks => do
    skipIndent indent
    if isBreak (← peek) then blockBreaks indent fuel (breaks ++ (← lineBreak)) else return breaks

/-- The lines of a block: its text, the last break, and the breaks after that. -/
def blockLines (fold : Bool) (indent : Nat) :
    Nat → List Char → List Char → List Char → Lexing (List Char × List Char × List Char)
  | 0, text, last, breaks => return (text, last, breaks)
  | fuel + 1, text, last, breaks => do
    let c ← get
    if c.column ≠ indent || c.peek 0 = nul then return (text, last, breaks)
    let startsWithBlank := c.peek 0 = ' ' || c.peek 0 = '\t'
    let line ← takeWhile fun c => !isLineEnd c
    let text := text ++ breaks ++ line
    let last ← lineBreak
    let breaks ← blockBreaks indent (← turns) []
    let c ← get
    if c.column = indent && c.peek 0 ≠ nul then
      let nextBlank := c.peek 0 = ' ' || c.peek 0 = '\t'
      -- Lines that begin with a blank keep their breaks, and so do their neighbours.
      let joined :=
        if fold && last = ['\n'] && !startsWithBlank && !nextBlank then
          if breaks.isEmpty then [' '] else []
        else last
      blockLines fold indent fuel (text ++ joined) last breaks
    else return (text, last, breaks)

/-- A block of literal or folded lines inside a block at column `outer`. -/
def readBlock (fold : Bool) (outer : Int) : Lexing String := do
  skip 1
  let (chomping, digit) ← blockHeader
  finishLine
  let least := max 1 (outer + 1).toNat
  let (breaks, indent) ← match digit with
    | none => do
      let (breaks, deepest) ← leadingLines (← turns) [] 0
      pure (breaks, max least deepest)
    | some digit => do
      let indent := least + digit - 1
      pure (← blockBreaks indent (← turns) [], indent)
  let (text, last, tail) ← blockLines fold indent (← turns) [] [] breaks
  return String.ofList (match chomping with
    | .strip => text
    | .clip => text ++ last
    | .keep => text ++ last ++ tail)

/-! ## Names, tags and directives -/

/-- A name after its indicator. -/
def readName : Lexing String := do
  skip 1
  let name ← takeWhile isNameChar
  if name.isEmpty then fail
  let c ← peek
  if isGap c || "?:,]\x7d%@`".toList.contains c then return String.ofList name else fail

/-- Whether a character may stand in a tag. -/
def isTagChar (c : Char) : Bool :=
  isNameChar c || ";/?:@&=+$,.!~*'()[]%".toList.contains c

/-- Bytes that are written with percent signs, one after the other. -/
def percentBytes : Nat → List UInt8 → Lexing (List UInt8)
  | 0, bytes => return bytes
  | fuel + 1, bytes => do
    if (← peek) = '%' then
      skip 1
      let byte ← hexNumber 2
      skip 2
      percentBytes fuel (bytes ++ [UInt8.ofNat byte])
    else return bytes

/-- The parts of a tag, with percent signs resolved. -/
def tagParts : Nat → List Char → Lexing (List Char)
  | 0, text => return text
  | fuel + 1, text => do
    let part ← takeWhile fun c => isTagChar c && c ≠ '%'
    if (← peek) = '%' then
      let bytes ← percentBytes (← turns) []
      match String.fromUTF8? ⟨bytes.toArray⟩ with
      | some s => tagParts fuel (text ++ part ++ s.toList)
      | none => fail
    else return text ++ part

/-- The suffix of a tag, which may not be empty. -/
def tagSuffix : Lexing String := do
  let start := (← get).index
  let text ← tagParts (← turns) []
  if (← get).index = start then fail else return String.ofList text

/-- The handle of a tag: one exclamation mark, or a name between two. -/
def tagHandle : Lexing String := do
  if (← peek) ≠ '!' then fail
  skip 1
  if (← peek) = ' ' then return "!"
  let name ← takeWhile isNameChar
  if (← peek) ≠ '!' then fail
  skip 1
  return "!" ++ String.ofList name ++ "!"

/-- Whether a tag has a handle of its own: a second exclamation mark before the next space. -/
def hasHandle : Lexing Bool := do
  let before := ((← get).rest.drop 1).takeWhile fun x => x ≠ '!' && !isSpaceOrEnd x
  return (← peekAt (before.length + 1)) = '!'

/-- A tag. -/
def readTag : Lexing TagName := do
  let next ← peekAt 1
  let name ← if next = '<' then do
      skip 2
      let suffix ← tagSuffix
      if (← peek) ≠ '>' then fail
      skip 1
      pure (TagName.mk none suffix)
    else if isGap next then do
      skip 1
      pure (TagName.mk none "!")
    else if ← hasHandle then do
      let handle ← tagHandle
      pure (TagName.mk (some handle) (← tagSuffix))
    else do
      skip 1
      pure (TagName.mk (some "!") (← tagSuffix))
  if isSpaceOrEnd (← peek) then return name else fail

/-- Plain digits as a number. -/
def readDigits : Lexing Nat := do
  let digits ← takeWhile fun c => '0' ≤ c && c ≤ '9'
  if digits.isEmpty then fail
  if digitLimit < digits.length then throw (.tooManyDigits digits.length)
  return digitsValue 10 (digits.map fun c => c.toNat - 48)

/-- A line that starts with a percent sign, break included. -/
def readDirective : Lexing Directive := do
  skip 1
  let name ← takeWhile isNameChar
  if name.isEmpty || !isSpaceOrEnd (← peek) then fail
  let directive ← if name = ['Y', 'A', 'M', 'L'] then do
      skipWhile (· = ' ')
      let major ← readDigits
      if (← peek) ≠ '.' then fail
      skip 1
      let minor ← readDigits
      if !isSpaceOrEnd (← peek) then fail
      pure (Directive.version major minor)
    else if name = ['T', 'A', 'G'] then do
      skipWhile (· = ' ')
      let handle ← tagHandle
      if (← peek) ≠ ' ' then fail
      skipWhile (· = ' ')
      let beginning ← tagSuffix
      if !isSpaceOrEnd (← peek) then fail
      pure (Directive.tag handle beginning)
    else do
      skipLine
      pure .other
  finishLine
  return directive

end Yaml

end Darkroom
