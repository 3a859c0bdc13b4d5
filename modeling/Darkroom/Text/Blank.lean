/-!
# White space

The characters that count as blank at the ends of a text, and the removal of what stands at both
ends. Removal never touches the middle: `trimEnds` drops the longest run of unwanted characters at
the front, then the longest at the back.

## Main definitions

* `isBlank`: White space of any script.
* `isPlainBlank`: White space within ASCII.
* `trimEnds`: A text without the unwanted characters at its ends.
-/

namespace Darkroom

/-- White space within ASCII: tab, the line breaks and form feed, and the space. -/
def isPlainBlank (c : Char) : Bool := (9 ≤ c.toNat && c.toNat ≤ 13) || c = ' '

/-- White space of any script, the four separators of ASCII control included. -/
def isBlank (c : Char) : Bool :=
  let n := c.toNat
  isPlainBlank c || (0x1C ≤ n && n ≤ 0x1F) || n = 0x85 || n = 0xA0 || n = 0x1680 ||
    (0x2000 ≤ n && n ≤ 0x200A) || n = 0x2028 || n = 0x2029 || n = 0x202F || n = 0x205F ||
    n = 0x3000

/-- Characters without the unwanted ones at either end. -/
def trimEnds (unwanted : Char → Bool) (cs : List Char) : List Char :=
  ((cs.dropWhile unwanted).reverse.dropWhile unwanted).reverse

end Darkroom
