import Darkroom.Text.Half
import Darkroom.Text.Printable

/-!
# Quoted text

How messages show a text or bytes: between quotes, with escapes for what has no visible form. The
quote is the single one, unless the text holds a single quote and no double one.

## Main definitions

* `quoted`: A text between quotes.
* `quotedBytes`: Bytes between quotes, after the letter `b`.
-/

namespace Darkroom

/-- The digits of `n` to base sixteen, padded with zeros to `width`. -/
def hexDigits (width n : Nat) : List Char :=
  let digits := Nat.toDigits 16 n
  List.replicate (width - digits.length) '0' ++ digits

/-- The quote to put around characters. -/
def quoteFor (cs : List Char) : Char :=
  if cs.contains '\'' && !cs.contains '"' then '"' else '\''

/-- The escape of a character that has no visible form: the shortest that holds its code. -/
def codeEscape (n : Nat) : List Char :=
  if n < 0x100 then ['\\', 'x'] ++ hexDigits 2 n
  else if n < 0x10000 then ['\\', 'u'] ++ hexDigits 4 n
  else ['\\', 'U'] ++ hexDigits 8 n

/-- One character inside quotes. -/
def quotedChar (quote : Char) (visible : Bool) (c : Char) : List Char :=
  if c = quote || c = '\\' then ['\\', c]
  else if c = '\n' then ['\\', 'n']
  else if c = '\r' then ['\\', 'r']
  else if c = '\t' then ['\\', 't']
  else if visible then [c]
  else codeEscape (codeOf c)

/-- A text between quotes. -/
def quoted (s : String) : String :=
  let cs := s.toList
  let quote := quoteFor cs
  String.ofList (quote :: cs.flatMap (fun c => quotedChar quote (isVisible c) c) ++ [quote])

/-- Bytes between quotes; only the visible part of ASCII stands for itself. -/
def quotedBytes (bytes : ByteArray) : String :=
  let cs := bytes.toList.map fun b => Char.ofNat b.toNat
  let quote := quoteFor cs
  let body := cs.flatMap fun c => quotedChar quote (' ' ≤ c && c ≤ '~') c
  String.ofList ('b' :: quote :: body ++ [quote])

end Darkroom
