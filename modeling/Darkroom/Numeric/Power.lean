/-!
# Powers of two and ten

The sizes of binary and decimal places. They are natural numbers whatever is done with them
afterwards, and always positive.

## Main definitions

* `twoTo`, `tenTo`: The powers.
-/

namespace Darkroom

/-- Two to the power of `n`. -/
def twoTo (n : Nat) : Nat := Nat.pow 2 n

/-- Ten to the power of `n`. -/
def tenTo (n : Nat) : Nat := Nat.pow 10 n

theorem twoTo_pos (n : Nat) : 0 < twoTo n := Nat.pow_pos (by decide)

theorem tenTo_pos (n : Nat) : 0 < tenTo n := Nat.pow_pos (by decide)

end Darkroom
