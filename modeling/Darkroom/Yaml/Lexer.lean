import Darkroom.Yaml.Pages
import Darkroom.Yaml.Scalar

/-!
# Tokens of a document

A document taken apart into tokens. Two things make this more than reading one part after the
other. Blocks begin and end where columns say so, so the reader keeps the columns of the blocks
that are open. And a key is known to be one only when its colon comes, so the reader remembers, for
each level of brackets, the last place where a key may have begun; when the colon comes, the marks
of a key and perhaps of a block are put there. A key has to end on its line and within 1024
characters. One that stands where only a key can stand has to get its colon.

A document that cannot be taken apart, or not be read on, still has the tokens before the place of
failure. Tokens that wait for a colon are not among them.

## Main definitions

* `Yaml.Lexer`: The place, the open blocks, the possible keys and the tokens so far.
* `Yaml.Lexer.step`: One more token, with the marks that come with it.
* `Yaml.Tokens`: The tokens of a document, and how it fails after them.
* `Yaml.tokens`: The tokens of a document.
-/

namespace Darkroom

namespace Yaml

open Lexing

/-- A place where a key may have begun: the level of brackets, whether only a key can stand there,
and the number of tokens before it. -/
structure PossibleKey where
  level : Int
  required : Bool
  number : Nat
  index : Nat
  line : Nat
  column : Nat

/-- The state of taking a document apart. -/
structure Lexer where
  cursor : Cursor
  indent : Int
  indents : List Int
  level : Int
  allowsKey : Bool
  keys : List PossibleKey
  tokens : Array Token
  done : Bool

namespace Lexer

/-- Whether the place is inside brackets. A closing bracket too many leaves it there. -/
def inFlow (s : Lexer) : Bool := s.level ≠ 0

/-- Adds a token. -/
def push (t : Token) (s : Lexer) : Lexer := { s with tokens := s.tokens.push t }

/-- Reads something at the place. -/
def read {α : Type} (reader : Lexing α) (s : Lexer) : Except Failure (α × Lexer) := do
  let (a, cursor) ← reader.run s.cursor
  return (a, { s with cursor })

/-- Looks at something without moving on. -/
def look {α : Type} (reader : Lexing α) (s : Lexer) : Except Failure α := reader.run' s.cursor

/-- Adds a token and moves on by `n` characters. -/
def pushOver (n : Nat) (t : Token) (s : Lexer) : Except Failure Lexer := do
  let ((), s) ← s.read (skip n)
  return s.push t

/-- Ends the blocks that are open beyond a column. -/
def closeBlocks (column : Int) (s : Lexer) : Lexer :=
  if s.inFlow then s else go s.indents s
where
  go : List Int → Lexer → Lexer
    | outer :: rest, s =>
      if column < s.indent then go rest { s.push .blockEnd with indent := outer, indents := rest }
      else s
    | [], s => s

/-- Opens a block at a column, unless one is open there. Tells whether it did. -/
def openBlock (column : Int) (s : Lexer) : Bool × Lexer :=
  if s.indent < column then
    (true, { s with indent := column, indents := s.indent :: s.indents })
  else (false, s)

/-- Gives up the possible keys that have waited too long for their colon. -/
def dropStaleKeys (s : Lexer) : Except Failure Lexer :=
  let stale (k : PossibleKey) : Bool :=
    k.line ≠ s.cursor.line || k.index + 1024 < s.cursor.index
  if s.keys.any fun k => stale k && k.required then .error .unscannableDocument
  else .ok { s with keys := s.keys.filter fun k => !stale k }

/-- Gives up the possible key of the present level of brackets. -/
def dropKey (s : Lexer) : Except Failure Lexer :=
  if s.keys.any fun k => k.level = s.level && k.required then .error .unscannableDocument
  else .ok { s with keys := s.keys.filter (·.level ≠ s.level) }

/-- Remembers the place as the beginning of a key, where a key may begin. -/
def saveKey (s : Lexer) : Except Failure Lexer :=
  if s.allowsKey then do
    -- At the column of the open block only a key of that block can stand.
    let required := !s.inFlow && s.indent = s.cursor.column
    let s ← s.dropKey
    let key : PossibleKey :=
      ⟨s.level, required, s.tokens.size, s.cursor.index, s.cursor.line, s.cursor.column⟩
    return { s with keys := key :: s.keys }
  else return s

/-- Moves on to the next token, over spaces, comments and line breaks. Tells whether a line was
ended. -/
def skipGap : Nat → Bool → Lexing Bool
  | 0, ended => return ended
  | fuel + 1, ended => do
    skipWhile (· = ' ')
    if (← peek) = '#' then skipLine
    if (← lineBreak).isEmpty then return ended else skipGap fuel true

/-- Moves on to the next token. A key may begin after a line break outside of brackets. -/
def toNextToken (s : Lexer) : Except Failure Lexer := do
  let (ended, s) ← s.read (skipGap (s.cursor.rest.length + 1) false)
  return { s with allowsKey := s.allowsKey || (ended && !s.inFlow) }

/-- The end of a document: every block ends. -/
def streamEnd (s : Lexer) : Except Failure Lexer := do
  let s ← (s.closeBlocks (-1)).dropKey
  return { s.push .streamEnd with allowsKey := false, keys := [], done := true }

/-- A line that starts with a percent sign. -/
def directive (s : Lexer) : Except Failure Lexer := do
  let s ← (s.closeBlocks (-1)).dropKey
  let (d, s) ← s.read readDirective
  return { s.push (.directive d) with allowsKey := false }

/-- A line that separates documents. -/
def separator (t : Token) (s : Lexer) : Except Failure Lexer := do
  let s ← (s.closeBlocks (-1)).dropKey
  let s ← s.pushOver 3 t
  return { s with allowsKey := false }

/-- An opening bracket. -/
def openBracket (t : Token) (s : Lexer) : Except Failure Lexer := do
  let s ← s.saveKey
  let s ← s.pushOver 1 t
  return { s with level := s.level + 1, allowsKey := true }

/-- A closing bracket. -/
def closeBracket (t : Token) (s : Lexer) : Except Failure Lexer := do
  let s ← s.dropKey
  let s ← s.pushOver 1 t
  return { s with level := s.level - 1, allowsKey := false }

/-- A comma between brackets. -/
def comma (s : Lexer) : Except Failure Lexer := do
  let s ← s.dropKey
  let s ← s.pushOver 1 .flowEntry
  return { s with allowsKey := true }

/-- The hyphen of an item. -/
def blockEntry (s : Lexer) : Except Failure Lexer := do
  let s ← if s.inFlow then .ok s
    else if !s.allowsKey then .error .unscannableDocument
    else
      let (opened, s) := s.openBlock s.cursor.column
      .ok (if opened then s.push .blockSequenceStart else s)
  let s ← s.dropKey
  let s ← s.pushOver 1 .blockEntry
  return { s with allowsKey := true }

/-- The question mark of a key. -/
def questionMark (s : Lexer) : Except Failure Lexer := do
  let s ← if s.inFlow then .ok s
    else if !s.allowsKey then .error .unscannableDocument
    else
      let (opened, s) := s.openBlock s.cursor.column
      .ok (if opened then s.push .blockMappingStart else s)
  let s ← s.dropKey
  let s ← s.pushOver 1 .key
  return { s with allowsKey := !s.inFlow }

/-- The colon of a value. If a key may have begun before it, the key's mark is put there. -/
def colon (s : Lexer) : Except Failure Lexer := do
  match s.keys.find? (·.level = s.level) with
  | some key =>
    let s := { s with keys := s.keys.filter (·.level ≠ s.level) }
    let (opened, s) := if s.inFlow then (false, s) else s.openBlock key.column
    -- The marks belong before the key, which may have been several tokens ago.
    let marks := if opened then #[Token.blockMappingStart, .key] else #[.key]
    let tokens := s.tokens.extract 0 key.number ++ marks ++
      s.tokens.extract key.number s.tokens.size
    let s ← { s with tokens }.pushOver 1 .value
    return { s with allowsKey := false }
  | none =>
    let s ← if s.inFlow then .ok s
      else if !s.allowsKey then .error .unscannableDocument
      else
        let (opened, s) := s.openBlock s.cursor.column
        .ok (if opened then s.push .blockMappingStart else s)
    let s ← s.dropKey
    let s ← s.pushOver 1 .value
    return { s with allowsKey := !s.inFlow }

/-- A token that may be a key. -/
def keyCandidate (reader : Lexing Token) (s : Lexer) : Except Failure Lexer := do
  let s ← s.saveKey
  let (t, s) ← s.read reader
  return { s.push t with allowsKey := false }

/-- A plain scalar. If it ended after a line break, a key may follow. -/
def plain (s : Lexer) : Except Failure Lexer := do
  let s ← s.saveKey
  let ((text, ended), s) ← s.read (readPlain s.inFlow s.indent)
  return { s.push (.scalar text true) with allowsKey := ended }

/-- A block of literal or folded lines. -/
def block (fold : Bool) (s : Lexer) : Except Failure Lexer := do
  let s ← s.dropKey
  let (text, s) ← s.read (readBlock fold s.indent)
  return { s.push (.scalar text false) with allowsKey := true }

/-- The characters that no plain scalar begins with, except that some of them may do so when no gap
follows. -/
def indicators : List Char := "-?:,[]\x7b\x7d#&*!|>'\"%@`".toList

/-- Whether the token at a place depends on the character after its first. -/
def needsNext (s : Lexer) (c : Char) : Bool :=
  "\t-@`".toList.contains c || (c = '%' && s.cursor.column ≠ 0) ||
    (if s.inFlow then c = '|' || c = '>' else c = '?' || c = ':')

/-- The token at a place where a token begins. -/
def token (s : Lexer) : Except Failure Lexer := do
  let c ← s.look peek
  let separates ←
    if (c = '-' || c = '.') && s.cursor.column = 0 then s.look atSeparator else pure false
  let next ← if !separates && s.needsNext c then s.look (peekAt 1) else pure nul
  let gapFollows := isGap next
  if c = nul then s.streamEnd
  else if c = '%' && s.cursor.column = 0 then s.directive
  else if separates then s.separator (if c = '-' then .documentStart else .documentEnd)
  else if c = '[' then s.openBracket .flowSequenceStart
  else if c = '\x7b' then s.openBracket .flowMappingStart
  else if c = ']' then s.closeBracket .flowSequenceEnd
  else if c = '\x7d' then s.closeBracket .flowMappingEnd
  else if c = ',' then s.comma
  else if c = '-' && gapFollows then s.blockEntry
  else if c = '?' && (s.inFlow || gapFollows) then s.questionMark
  else if c = ':' && (s.inFlow || gapFollows) then s.colon
  else if c = '*' then s.keyCandidate (Token.reference <$> readName)
  else if c = '&' then s.keyCandidate (Token.anchor <$> readName)
  else if c = '!' then s.keyCandidate (Token.tag <$> readTag)
  else if c = '|' && !s.inFlow then s.block false
  else if c = '>' && !s.inFlow then s.block true
  else if c = '\'' || c = '"' then s.keyCandidate ((Token.scalar · false) <$> readQuoted)
  else if !(isGap c || indicators.contains c) then s.plain
  -- Three of the indicators are part of a scalar when no gap follows.
  else if !gapFollows && (c = '-' || (!s.inFlow && (c = '?' || c = ':'))) then s.plain
  else .error .unscannableDocument

/-- One more token, with the marks that come with it. -/
def step (s : Lexer) : Except Failure Lexer := do
  let s ← s.toNextToken
  let s ← s.dropStaleKeys
  let s ← (s.closeBlocks s.cursor.column).token
  -- The token itself may have gone over lines, and past the bound for a key.
  s.dropStaleKeys

/-- The tokens that no longer wait for a colon. -/
def settled (s : Lexer) : List Token :=
  let waiting := s.keys.foldl (fun least k => min least k.number) s.tokens.size
  (s.tokens.extract 0 waiting).toList

end Lexer

/-- The tokens of a document, and the failure that comes after them if there are too few. -/
structure Tokens where
  items : List Token
  failure : Failure

/-- All further tokens of a document. -/
def allTokens : Nat → Lexer → Tokens
  | 0, s => ⟨s.settled, .unscannableDocument⟩
  | fuel + 1, s =>
    if s.done then ⟨s.tokens.toList, .unscannableDocument⟩
    else
      match s.step with
      | .ok s => allTokens fuel s
      | .error failure => ⟨s.settled, failure⟩

/-- The tokens of a document. A mark before it is skipped. -/
def tokens (pages : Pages) : Tokens :=
  let start : Cursor := ⟨pages.text, pages.failure, 0, 0, 0⟩
  let start := if pages.text.head? = some byteOrderMark then start.next else start
  allTokens (pages.text.length + 2) ⟨start, -1, [], 0, true, [], #[], false⟩

end Yaml

end Darkroom
