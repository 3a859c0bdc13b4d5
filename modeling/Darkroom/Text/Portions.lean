import Darkroom.Failure

/-!
# Reading text

A file of text is read in portions, and only as far as its characters are asked for. The end of a
portion may cut a character in two, or a line break of two characters; what is cut waits for the
next portion. Bytes that are no text are noticed with their portion, and then nothing of it can be
read, not even what stands before them.

Lines end with a line feed, whatever ends them in the file.

## Main definitions

* `TextFile`: A file of text that is being read.
* `TextFile.ofBytes`: A file that nothing has been read of.
* `TextFile.take`: The next characters of a file.
-/

namespace Darkroom

/-- The number of bytes that follow the first byte of a character, and the least and the greatest
one that may come next. -/
def followers (first : UInt8) : Nat × UInt8 × UInt8 :=
  if first < 0xC2 || 0xF4 < first then (0, 0x80, 0xBF)
  else if first < 0xE0 then (1, 0x80, 0xBF)
  else if first < 0xF0 then
    (2, if first = 0xE0 then 0xA0 else 0x80, if first = 0xED then 0x9F else 0xBF)
  else (3, if first = 0xF0 then 0x90 else 0x80, if first = 0xF4 then 0x8F else 0xBF)

/-- Whether bytes are the beginning of a character that has more of them. -/
def isCutCharacter : List UInt8 → Bool
  | [] => false
  | first :: rest =>
    let (count, least, greatest) := followers first
    rest.length < count &&
      match rest with
      | [] => true
      | second :: others =>
        least ≤ second && second ≤ greatest && others.all fun b => 0x80 ≤ b && b < 0xC0

/-- Bytes without the character that is cut at their end, and its beginning. -/
def splitCut (bytes : List UInt8) : List UInt8 × List UInt8 :=
  let ends := [1, 2, 3].map fun (k : Nat) => bytes.length - k
  match ends.find? fun place => isCutCharacter (bytes.drop place) with
  | some place => bytes.splitAt place
  | none => (bytes, [])

/-- Lines with a line feed at their end, whatever ended them. -/
def unifyBreaks : List Char → List Char
  | '\r' :: '\n' :: rest => '\n' :: unifyBreaks rest
  | '\r' :: rest => '\n' :: unifyBreaks rest
  | c :: rest => c :: unifyBreaks rest
  | [] => []

/-- A file of text that is being read. What is cut are the bytes at the end of the last portion that
wait for the rest of their character, and perhaps a carriage return that waits for a line feed. -/
structure TextFile where
  bytes : List UInt8
  cut : List UInt8
  cutBreak : Bool
  ready : List Char
  lastBytes : Nat
  lastChars : Nat
  ended : Bool

namespace TextFile

/-- A file that nothing has been read of. -/
def ofBytes (data : ByteArray) : TextFile := ⟨data.toList, [], false, [], 0, 0, false⟩

/-- The least size of a portion. -/
def portionSize : Nat := 8192

/-- Reads one more portion of a file of which `missing` characters are needed. It is as large as
they would be if they were written like those of the last portion. -/
def readPortion (missing : Nat) (f : TextFile) : Except Failure TextFile := do
  let size := max portionSize (missing * f.lastBytes / f.lastChars)
  let portion := f.bytes.take size
  let ended := portion.isEmpty
  let data := f.cut ++ portion
  let (whole, cut) := if ended then (data, []) else splitCut data
  match String.fromUTF8? ⟨whole.toArray⟩ with
  | none => .error .wrongEncoding
  | some text =>
    let chars := if f.cutBreak then '\r' :: text.toList else text.toList
    let cutBreak := !ended && chars.getLast? = some '\r'
    let found := unifyBreaks (if cutBreak then chars.dropLast else chars)
    return ⟨f.bytes.drop size, cut, cutBreak, f.ready ++ found, portion.length, found.length, ended⟩

/-- Reads portions until `count` characters are ready or the file ends. -/
def fillUp (count : Nat) : Nat → TextFile → Except Failure TextFile
  | 0, f => .ok f
  | fuel + 1, f =>
    if f.ended || count ≤ f.ready.length then .ok f
    else do fillUp count fuel (← f.readPortion (count - f.ready.length))

/-- The next `count` characters of a file, or as many as there are. -/
def take (count : Nat) (f : TextFile) : Except Failure (List Char × TextFile) := do
  let f ← fillUp count (f.bytes.length + 1) f
  return (f.ready.take count, { f with ready := f.ready.drop count })

end TextFile

end Darkroom
