/-!
# Halves of characters

Characters beyond 16 bits have an old spelling as a pair of numbers, and a document or a message may
name one number of such a pair alone, which is no character. A text keeps such a half as one of the
characters that are set aside for private use: it can then be carried around and shown by its
number like any other character. Two halves that meet in a text stay two.

The 2048 characters from U+10B000 to U+10B7FF are kept for halves and cannot stand for themselves as
well: a text with one of them is taken for a text with a half, and a file name with one of them is
refused. No other characters are affected.

## Main definitions

* `charOfCode`: The character that a text keeps for a number.
* `codeOf`: The number that a character is kept for.
* `isHalf`, `isByteHalf`: Halves, and those among them that stand for single bytes of file names.
-/

namespace Darkroom

/-- Whether a number is one of a pair. -/
def isHalfCode (n : Nat) : Bool := 0xD800 ≤ n && n < 0xE000

/-- The distance from halves to the characters that are kept for them. -/
def halfShift : Nat := 0x10B000 - 0xD800

/-- The character that a text keeps for a number. -/
def charOfCode (n : Nat) : Char := Char.ofNat (if isHalfCode n then n + halfShift else n)

/-- Whether a character is kept for a half. -/
def isHalf (c : Char) : Bool := isHalfCode (c.toNat - halfShift)

/-- The number that a character is kept for. -/
def codeOf (c : Char) : Nat := if isHalf c then c.toNat - halfShift else c.toNat

/-- Whether a character is kept for a half that stands for a single byte of a file name. -/
def isByteHalf (c : Char) : Bool := 0xDC80 ≤ codeOf c && codeOf c < 0xDD00 && isHalf c

end Darkroom
