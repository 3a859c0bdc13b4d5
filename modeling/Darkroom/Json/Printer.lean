import Darkroom.Value.Shown

/-!
# Writing JSON

A value as JSON text, in ASCII: every other character is an escape of four digits, or two of them.
Real numbers have the fewest digits that read back. A text either stands on one line or spreads
over lines with an indent of two; the entries of an object come as they are or by key.

## Main definitions

* `Json.Layout`: One line or several, and the order of entries.
* `Json.write`: A value as text.
-/

namespace Darkroom

namespace Json

/-- How a text is laid out. -/
structure Layout where
  spreads : Bool
  sortsKeys : Bool

/-- One character of a text. -/
def escaped (c : Char) : List Char :=
  let unit (n : Nat) : List Char := ['\\', 'u'] ++ hexDigits 4 n
  let n := codeOf c
  if c = '"' || c = '\\' then ['\\', c]
  else if ' ' ≤ c && c ≤ '~' then [c]
  else if c = '\n' then ['\\', 'n']
  else if c = '\r' then ['\\', 'r']
  else if c = '\t' then ['\\', 't']
  else if n = 8 then ['\\', 'b']
  else if n = 12 then ['\\', 'f']
  else if n < 0x10000 then unit n
  else unit (0xD800 + (n - 0x10000) / 0x400) ++ unit (0xDC00 + (n - 0x10000) % 0x400)

/-- A text between quotes. -/
def quotedText (s : String) : String :=
  String.ofList ('"' :: s.toList.flatMap escaped ++ ['"'])

/-- A real number. -/
def realText : Double → String
  | .nan => "NaN"
  | .infinite negative => if negative then "-Infinity" else "Infinity"
  | x => x.exactText

/-- A value that can be written without brackets. -/
def scalarText? : Value → Option (Except Failure String)
  | .null => some (.ok "null")
  | .flag b => some (.ok (if b then "true" else "false"))
  | .whole n => some (Value.wholeText n)
  | .real x => some (.ok (realText x))
  | .text s => some (.ok (quotedText s))
  | _ => none

/-- A key as a text. -/
def keyText : Value → Except Failure String
  | .text s => .ok s
  | key => match scalarText? key with
    | some text => text
    | none => .error .wrongType

/-- Parts between brackets, on one line or one to a line. -/
def bracketed (layout : Layout) (depth : Nat) (first last : String) (parts : List String) :
    String :=
  let newline (depth : Nat) : String :=
    "\n" ++ String.ofList (List.replicate (2 * depth) ' ')
  if parts.isEmpty then first ++ last
  else if layout.spreads then
    first ++ newline (depth + 1) ++ ("," ++ newline (depth + 1)).intercalate parts ++
      newline depth ++ last
  else first ++ ", ".intercalate parts ++ last

/-- Entries in the order of their keys. Keys of several kinds have no order. -/
def orderedEntries (layout : Layout) (entries : List (Value × Value)) :
    Except Failure (List (Value × Value)) :=
  if !layout.sortsKeys then .ok entries
  else
    match entries.mapM fun entry => match entry.1 with
      | .text s => some (s, entry)
      | _ => none with
    | some named => .ok ((named.mergeSort fun a b => a.1 ≤ b.1).map Prod.snd)
    | none => if entries.length ≤ 1 then .ok entries else .error .wrongType

/-- A value as text, `depth` levels inside others. The fuel bounds the nesting. -/
def writeWithin (layout : Layout) : Nat → Nat → Value → Except Failure String
  | 0, _, _ => .error .wrongType
  | fuel + 1, depth, value =>
    match scalarText? value with
    | some text => text
    | none =>
      match value with
      | .items values | .tuple values => do
        let parts ← values.mapM (writeWithin layout fuel (depth + 1))
        return bracketed layout depth "[" "]" parts
      | .table entries => do
        let parts ← (← orderedEntries layout entries).mapM fun (key, value) => do
          let text ← writeWithin layout fuel (depth + 1) value
          return quotedText (← keyText key) ++ ": " ++ text
        return bracketed layout depth "\x7b" "\x7d" parts
      | _ => .error .wrongType

mutual

/-- How deep a value is nested. -/
def depth : Value → Nat
  | .items values | .tuple values => depthOfAll values + 1
  | .table entries => depthOfEntries entries + 1
  | _ => 0

def depthOfAll : List Value → Nat
  | [] => 0
  | value :: rest => max (depth value) (depthOfAll rest)

def depthOfEntries : List (Value × Value) → Nat
  | [] => 0
  | (_, value) :: rest => max (depth value) (depthOfEntries rest)

end

/-- A value as text. -/
def write (layout : Layout) (value : Value) : Except Failure String :=
  writeWithin layout (depth value + 1) 0 value

end Json

end Darkroom
