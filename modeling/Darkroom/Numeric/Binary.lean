import Darkroom.Numeric.Power

/-!
# Binary floating point

Numbers of the form `± m · 2 ^ e` with a bounded significand and a bounded exponent, together
with the two infinities and one not-a-number. The samples of a normalised picture are such numbers
with 24 significant bits (`Single`), the settings and the exposure data have 53 (`Double`).

Every operation is computed exactly on the significands first and rounded once, to the nearest
representable number with ties to the even significand. The rounding is one function,
`Binary.ofRatio`, so what is proved of it holds of sums, products, quotients, conversions and
decimal readings alike. A finite number carries the proof that its significand and exponent are
the canonical pair for its value: equal values of one sign are equal terms.

## Main definitions

* `BinaryFormat`: How many significant bits there are, and the range of the last place.
* `Binary`: A number of a format.
* `nearestEven`: A quotient of naturals, rounded to the nearest natural with ties to even.
* `Binary.ofRatio`: The number nearest to `± num / den · 2 ^ e`.
* `Binary.toRat`: The exact value of a finite number.
* `Binary.toBits`, `Binary.ofBits`: The interchange encoding.
-/

namespace Darkroom

/-- A binary format: the number of significant bits, and the least and the greatest exponent that
the last of them may have. -/
structure BinaryFormat where
  precision : Nat
  minExponent : Int
  maxExponent : Int
  precision_pos : 0 < precision := by decide
  minExponent_le : minExponent ≤ maxExponent := by decide
  deriving DecidableEq

/-- The 32-bit interchange format. -/
def binary32 : BinaryFormat where
  precision := 24
  minExponent := -149
  maxExponent := 104

/-- The 64-bit interchange format. -/
def binary64 : BinaryFormat where
  precision := 53
  minExponent := -1074
  maxExponent := 971

namespace BinaryFormat

/-- A significand and an exponent are canonical when both fit the format and the significand uses
all its bits, unless the exponent is already the least one. -/
def Canonical (f : BinaryFormat) (significand : Nat) (exponent : Int) : Prop :=
  significand < twoTo f.precision ∧ f.minExponent ≤ exponent ∧ exponent ≤ f.maxExponent ∧
    (exponent = f.minExponent ∨ twoTo (f.precision - 1) ≤ significand)

instance (f : BinaryFormat) (m : Nat) (e : Int) : Decidable (f.Canonical m e) :=
  inferInstanceAs (Decidable (_ ∧ _))

theorem canonical_zero (f : BinaryFormat) : f.Canonical 0 f.minExponent :=
  ⟨twoTo_pos _, Int.le_refl _, f.minExponent_le, .inl rfl⟩

/-- The exponent field of the infinities and of not-a-number: all ones. -/
def topField (f : BinaryFormat) : Nat := (f.maxExponent - f.minExponent + 2).toNat

/-- The number of bits of the exponent field. -/
def exponentBits (f : BinaryFormat) : Nat := (f.topField + 1).log2

/-- The number of bits of an encoded number. -/
def width (f : BinaryFormat) : Nat := f.precision + f.exponentBits

end BinaryFormat

/-- A binary floating-point number. -/
inductive Binary (f : BinaryFormat) where
  | nan
  | infinite (negative : Bool)
  | finite (negative : Bool) (significand : Nat) (exponent : Int)
      (canonical : f.Canonical significand exponent)
  deriving DecidableEq

/-- A number with 24 significant bits. -/
abbrev Single := Binary binary32

/-- A number with 53 significant bits. -/
abbrev Double := Binary binary64

/-- The natural number nearest to `num / den`; a value halfway between two goes to the even one. -/
def nearestEven (num den : Nat) : Nat :=
  let quotient := num / den
  let remainder := num % den
  if 2 * remainder < den then quotient
  else if den < 2 * remainder then quotient + 1
  else quotient + quotient % 2

/-- The exponent of the greatest power of two that is at most `num / den`. -/
def floorLog2 (num den : Nat) : Int :=
  let guess : Int := (num.log2 : Int) - (den.log2 : Int)
  let reached : Bool :=
    if 0 ≤ guess then den * twoTo guess.toNat ≤ num else den ≤ num * twoTo (-guess).toNat
  if reached then guess else guess - 1

/-- The natural number nearest to `num / den · 2 ^ shift`, ties to even. -/
def nearestShifted (num den : Nat) (shift : Int) : Nat :=
  if 0 ≤ shift then nearestEven (num * twoTo shift.toNat) den
  else nearestEven num (den * twoTo (-shift).toNat)

/-- `m` with a sign. -/
def signed (negative : Bool) (m : Nat) : Int := if negative then -(m : Int) else m

namespace Binary

variable {f : BinaryFormat}

/-- Zero of either sign. -/
def zero (negative : Bool) : Binary f := .finite negative 0 f.minExponent f.canonical_zero

instance : Inhabited (Binary f) := ⟨zero false⟩

/-- The number of a significand and an exponent that are in canonical form, unless the exponent is
too large: then the magnitude has left the format and an infinity stands for it. -/
def pack (negative : Bool) (significand : Nat) (exponent : Int) : Binary f :=
  if h : f.Canonical significand exponent then .finite negative significand exponent h
  else .infinite negative

/-- The number nearest to `± num / den · 2 ^ exponent`, ties to the even significand, where `den`
is not zero. Magnitudes beyond the greatest number by half a last place or more become infinite. -/
def ofRatio (negative : Bool) (num den : Nat) (exponent : Int) : Binary f :=
  if num = 0 then zero negative
  else
    let lastPlace := max f.minExponent (floorLog2 num den + exponent - (f.precision - 1 : Nat))
    let significand := nearestShifted num den (exponent - lastPlace)
    if significand < twoTo f.precision then pack negative significand lastPlace
    else pack negative (twoTo (f.precision - 1)) (lastPlace + 1)

/-- The number nearest to `value · 2 ^ exponent`; zero comes out with the sign `zeroSign`. -/
def ofScaled (value : Int) (exponent : Int) (zeroSign : Bool) : Binary f :=
  if value = 0 then zero zeroSign else ofRatio (value < 0) value.natAbs 1 exponent

/-- The number nearest to an integer. -/
def ofInt (value : Int) : Binary f := ofScaled value 0 false

instance {n : Nat} : OfNat (Binary f) n := ⟨ofInt n⟩

def isNaN : Binary f → Bool
  | nan => true
  | _ => false

def isFinite : Binary f → Bool
  | finite .. => true
  | _ => false

/-- Whether a number is zero, of either sign. -/
def isZero : Binary f → Bool
  | finite _ m _ _ => m = 0
  | _ => false

/-- Whether the sign of a number is minus; not-a-number has none. -/
def isNegative : Binary f → Bool
  | nan => false
  | infinite s => s
  | finite s .. => s

/-- The exact value of a finite number. The others have none, and zero stands in for it. -/
def toRat : Binary f → Rat
  | finite s m e _ =>
    if 0 ≤ e then ((signed s m * twoTo e.toNat : Int) : Rat)
    else mkRat (signed s m) (twoTo (-e).toNat)
  | _ => 0

protected def neg : Binary f → Binary f
  | nan => nan
  | infinite s => infinite !s
  | finite s m e h => finite (!s) m e h

/-- The exact sum, rounded. Opposite numbers add up to the positive zero. -/
protected def add : Binary f → Binary f → Binary f
  | nan, _ => nan
  | _, nan => nan
  | infinite s, infinite t => if s = t then infinite s else nan
  | infinite s, finite .. => infinite s
  | finite .., infinite t => infinite t
  | finite s m e _, finite t n d _ =>
    let common := min e d
    ofScaled (signed s m * twoTo (e - common).toNat + signed t n * twoTo (d - common).toNat) common
      (s && t)

protected def sub (a b : Binary f) : Binary f := a.add b.neg

/-- The exact product, rounded. -/
protected def mul : Binary f → Binary f → Binary f
  | nan, _ => nan
  | _, nan => nan
  | infinite s, infinite t => infinite (s != t)
  | infinite s, finite t n _ _ => if n = 0 then nan else infinite (s != t)
  | finite s m _ _, infinite t => if m = 0 then nan else infinite (s != t)
  | finite s m e _, finite t n d _ => ofRatio (s != t) (m * n) 1 (e + d)

/-- The exact quotient, rounded. A number other than zero divided by zero is infinite. -/
protected def div : Binary f → Binary f → Binary f
  | nan, _ => nan
  | _, nan => nan
  | infinite _, infinite _ => nan
  | infinite s, finite t .. => infinite (s != t)
  | finite s .., infinite t => zero (s != t)
  | finite s m e _, finite t n d _ =>
    if n = 0 then if m = 0 then nan else infinite (s != t)
    else ofRatio (s != t) m n (e - d)

instance : Neg (Binary f) := ⟨Binary.neg⟩
instance : Add (Binary f) := ⟨Binary.add⟩
instance : Sub (Binary f) := ⟨Binary.sub⟩
instance : Mul (Binary f) := ⟨Binary.mul⟩
instance : Div (Binary f) := ⟨Binary.div⟩

/-- Whether `± m · 2 ^ e` is below `± n · 2 ^ d`, decided at the smaller exponent. -/
def scaledLess (a : Int) (e : Int) (b : Int) (d : Int) : Bool :=
  a * twoTo (e - min e d).toNat < b * twoTo (d - min e d).toNat

/-- Numerical order; nothing is below or above not-a-number. -/
protected def less : Binary f → Binary f → Bool
  | nan, _ => false
  | _, nan => false
  | infinite s, infinite t => s && !t
  | infinite s, finite .. => s
  | finite .., infinite t => !t
  | finite s m e _, finite t n d _ => scaledLess (signed s m) e (signed t n) d

/-- Numerical equality: the two zeros agree, and not-a-number equals nothing. -/
def equal : Binary f → Binary f → Bool
  | nan, _ => false
  | _, nan => false
  | a, b => !a.less b && !b.less a

instance : LT (Binary f) := ⟨fun a b => a.less b = true⟩
instance : LE (Binary f) := ⟨fun a b => (a.less b || a.equal b) = true⟩
instance (a b : Binary f) : Decidable (a < b) := inferInstanceAs (Decidable (_ = true))
instance (a b : Binary f) : Decidable (a ≤ b) := inferInstanceAs (Decidable (_ = true))

/-- The greater of two numbers; not-a-number wins over everything. -/
def maximum (a b : Binary f) : Binary f :=
  if a.isNaN then a else if b.isNaN then b else if b ≤ a then a else b

/-- The smaller of two numbers; not-a-number wins over everything. -/
def minimum (a b : Binary f) : Binary f :=
  if a.isNaN then a else if b.isNaN then b else if a ≤ b then a else b

/-- `a` moved into `lo … hi`; not-a-number stays. -/
def clamp (a lo hi : Binary f) : Binary f :=
  if a.isNaN then a else if a ≤ lo then lo else if hi ≤ a then hi else a

/-- The remainder of `a` by `b` with the sign of `a`, which is exact. -/
def truncatedRemainder : Binary f → Binary f → Binary f
  | finite s m e h, finite _ n d _ =>
    if n = 0 then nan
    else
      let common := min e d
      let r := m * twoTo (e - common).toNat % (n * twoTo (d - common).toNat)
      if m = 0 then finite s m e h else ofRatio s r 1 common
  | finite s m e h, infinite _ => finite s m e h
  | _, _ => nan

/-- The remainder of `a` by `b` with the sign of `b`: `b` is added, with rounding, to a remainder
of the other sign, and a remainder of zero takes the sign of `b`. -/
def modulo (a b : Binary f) : Binary f :=
  let r := a.truncatedRemainder b
  if b.isZero || r.isNaN then r
  else if r.isZero then zero b.isNegative
  else if r.isNegative != b.isNegative then r + b
  else r

/-- The nearest integer as a number of the format, ties to even. -/
def roundToIntegral : Binary f → Binary f
  | finite s m e h =>
    if 0 ≤ e then finite s m e h else ofRatio s (nearestEven m (twoTo (-e).toNat)) 1 0
  | a => a

/-- The integer part of a finite number, toward zero. -/
def truncate? : Binary f → Option Int
  | finite s m e _ =>
    some (signed s (if 0 ≤ e then m * twoTo e.toNat else m / twoTo (-e).toNat))
  | _ => none

/-- The nearest number of another format. -/
def convert {g : BinaryFormat} : Binary f → Binary g
  | nan => nan
  | infinite s => infinite s
  | finite s m e _ => ofRatio s m 1 e

/-- The interchange encoding: a sign bit, the exponent field, and the significand without the
leading bit that the exponent field implies. -/
def toBits : Binary f → Nat
  | nan => f.topField * twoTo (f.precision - 1) + twoTo (f.precision - 2)
  | infinite s => signBit s + f.topField * twoTo (f.precision - 1)
  | finite s m e _ =>
    if m < twoTo (f.precision - 1) then signBit s + m
    else signBit s + ((e - f.minExponent).toNat * twoTo (f.precision - 1) + m)
where
  signBit (s : Bool) : Nat := if s then twoTo (f.width - 1) else 0

/-- The number that the low bits of a natural number encode. -/
def ofBits (bits : Nat) : Binary f :=
  let negative := bits / twoTo (f.width - 1) % 2 = 1
  let field := bits / twoTo (f.precision - 1) % twoTo f.exponentBits
  let fraction := bits % twoTo (f.precision - 1)
  if field = f.topField then if fraction = 0 then infinite negative else nan
  else if field = 0 then pack negative fraction f.minExponent
  else pack negative (fraction + twoTo (f.precision - 1)) (f.minExponent + (field - 1 : Nat))

end Binary

end Darkroom
