import Darkroom.Numeric.Binary
import Darkroom.Numeric.Power

/-!
# Decimal notation

Numbers are shown in three ways: with the fewest digits that read back as the same number, with a
bounded count of significant digits, and with a fixed count of places. All three look at the exact
value `m · 2 ^ e` in integer arithmetic, so no digit is ever guessed.

The fewest digits are found by trying decimal grids from coarse to fine. On each grid the value
lies between two neighbours; the first grid on which one of them reads back wins, and of two
neighbours that both do, the nearer. Reading is `Binary.ofDecimal`, which rounds the exact decimal
value once.

## Main definitions

* `Decimal`: A significand and a power of ten.
* `Binary.ofDecimal`: The number nearest to a decimal.
* `Binary.shortest`: The decimal with the fewest digits that reads back.
* `Binary.significant`: The decimal with a given count of significant digits.
* `Binary.fixedText`: A number with a fixed count of places.
* `DecimalStyle`, `Decimal.render`: Where positional notation ends, and whether a point is kept.
-/

namespace Darkroom

/-- The decimal `significand · 10 ^ exponent`. -/
structure Decimal where
  significand : Nat
  exponent : Int
  deriving DecidableEq, Repr

/-- The decimal digits of a natural number, the most significant first. -/
def decimalDigits (n : Nat) : List Char := Nat.toDigits 10 n

/-- The value of decimal digits that are given as numbers. -/
def ofDigits (digits : List Nat) : Nat := digits.foldl (fun value digit => 10 * value + digit) 0

namespace Decimal

/-- How many digits the significand has; zero has one. -/
def digitCount (d : Decimal) : Nat := (decimalDigits d.significand).length

/-- The same decimal without zeros at the end of the significand. -/
def stripZeros (d : Decimal) : Decimal := go d (d.digitCount)
where
  go (d : Decimal) : Nat → Decimal
    | 0 => d
    | fuel + 1 =>
      if d.significand % 10 = 0 && d.significand ≠ 0 then
        go ⟨d.significand / 10, d.exponent + 1⟩ fuel
      else d

end Decimal

/-- The exponent `k` with `10 ^ (k - 1) ≤ num / den < 10 ^ k`, for a ratio that is not zero. -/
def decade (num den : Nat) : Int :=
  -- `30103 / 100000` is the logarithm of two; the guess is at most one off.
  let guess : Int := (floorLog2 num den * 30103).fdiv 100000 + 1
  if atLeast (guess) then guess + 1 else if atLeast (guess - 1) then guess else guess - 1
where
  atLeast (power : Int) : Bool :=
    if 0 ≤ power then den * tenTo power.toNat ≤ num else den ≤ num * tenTo (-power).toNat

/-- `num / den · 10 ^ shift` as a ratio. -/
def scaleByTen (num den : Nat) (shift : Int) : Nat × Nat :=
  if 0 ≤ shift then (num * tenTo shift.toNat, den) else (num, den * tenTo (-shift).toNat)

namespace Binary

variable {f : BinaryFormat}

/-- The number nearest to a decimal. A decimal with so many places that it lies beyond every
number of the format, or below half the least one, is settled by its size alone: a power of ten
exceeds the same power of two. -/
def ofDecimal (negative : Bool) (d : Decimal) : Binary f :=
  let magnitude : Int := d.digitCount + d.exponent
  if d.significand = 0 then zero negative
  else if f.maxExponent + f.precision < magnitude then infinite negative
  else if magnitude < f.minExponent - 1 then zero negative
  else
    let (num, den) := scaleByTen d.significand 1 d.exponent
    ofRatio negative num den 0

/-- The magnitude of a finite number as a ratio. -/
def magnitude (x : Binary f) : Nat × Nat :=
  match x with
  | finite _ m e _ => if 0 ≤ e then (m * twoTo e.toNat, 1) else (m, twoTo (-e).toNat)
  | _ => (0, 1)

/-- The magnitude of a finite number rounded to `count` significant digits, ties to even. -/
def significant (count : Nat) (x : Binary f) : Decimal :=
  let (num, den) := x.magnitude
  if num = 0 then ⟨0, 0⟩
  else
    let shift : Int := count - decade num den
    let (n, d) := scaleByTen num den shift
    Decimal.stripZeros ⟨nearestEven n d, -shift⟩

/-- The decimal with the fewest digits among those that read back as the magnitude of a finite
number, and of these the nearest. Seventeen digits always suffice for 53 bits. -/
def shortest (x : Binary f) : Decimal :=
  let (num, den) := x.magnitude
  if num = 0 then ⟨0, 0⟩
  else Decimal.stripZeros (search num den (decade num den) 1 16)
where
  readsBack (d : Decimal) : Bool :=
    match x with
    | finite _ m e h => (ofDecimal false d : Binary f) = finite false m e h
    | _ => true
  search (num den : Nat) (top : Int) (count : Nat) : Nat → Decimal
    | 0 => let shift : Int := count - top
           let (n, d) := scaleByTen num den shift
           ⟨nearestEven n d, -shift⟩
    | fuel + 1 =>
      let shift : Int := count - top
      let (n, d) := scaleByTen num den shift
      let nearer := nearestEven n d
      let farther := if nearer = n / d then nearer + 1 else n / d
      -- Where the spacing changes, only the neighbour on the other side may read back.
      if readsBack ⟨nearer, -shift⟩ then ⟨nearer, -shift⟩
      else if readsBack ⟨farther, -shift⟩ then ⟨farther, -shift⟩
      else search num den top (count + 1) fuel

end Binary

/-- How a decimal is laid out: positional from `leastPower` up to below `firstPower` as the power
of ten of the leading digit, with an exponent elsewhere, and with or without `.0` after a whole
number in positional notation. -/
structure DecimalStyle where
  leastPower : Int
  firstPower : Int
  keepsPoint : Bool

/-- Numbers in reports, records and messages. -/
def DecimalStyle.exact : DecimalStyle := ⟨-4, 16, true⟩

/-- Numbers with six significant digits. -/
def DecimalStyle.brief : DecimalStyle := ⟨-4, 6, false⟩

/-- A decimal in a style: `100.0`, `0.0001`, `1e-05`, `1.5e+300`. -/
def Decimal.render (style : DecimalStyle) (d : Decimal) : String :=
  let digits := decimalDigits d.significand
  let power : Int := digits.length + d.exponent - 1
  if d.significand = 0 then if style.keepsPoint then "0.0" else "0"
  else if style.leastPower ≤ power && power < style.firstPower then
    if power < 0 then
      "0." ++ String.ofList (List.replicate (-power - 1).toNat '0' ++ digits)
    else
      let whole := power.toNat + 1
      let before := digits.take whole ++ List.replicate (whole - digits.length) '0'
      let after := digits.drop whole
      if after.isEmpty then String.ofList before ++ (if style.keepsPoint then ".0" else "")
      else String.ofList before ++ "." ++ String.ofList after
  else
    let head := digits.take 1
    let tail := digits.drop 1
    let places := decimalDigits power.natAbs
    -- An exponent has two digits at least.
    let padded := if places.length < 2 then '0' :: places else places
    String.ofList head ++ (if tail.isEmpty then "" else "." ++ String.ofList tail) ++ "e" ++
      (if power < 0 then "-" else "+") ++ String.ofList padded

namespace Binary

variable {f : BinaryFormat}

/-- The sign, and the text of the magnitude. -/
def withSign (x : Binary f) (magnitude : String) : String :=
  if x.isNegative then "-" ++ magnitude else magnitude

/-- The fewest digits that read back: `0.1`, `1e+16`, `nan`, `-inf`. -/
def exactText (x : Binary f) : String :=
  match x with
  | nan => "nan"
  | infinite _ => x.withSign "inf"
  | finite .. => x.withSign (x.shortest.render .exact)

/-- Six significant digits without zeros at the end: `2.5`, `1.23457e+06`. -/
def briefText (x : Binary f) : String :=
  match x with
  | nan => "nan"
  | infinite _ => x.withSign "inf"
  | finite .. => x.withSign ((x.significant 6).render .brief)

/-- A fixed count of places, ties to even: `f/2.8` shows one place. -/
def fixedText (places : Nat) (x : Binary f) : String :=
  match x with
  | nan => "nan"
  | infinite _ => x.withSign "inf"
  | finite .. =>
    let (num, den) := x.magnitude
    let digits := decimalDigits (nearestEven (num * tenTo places) den)
    let padded := List.replicate (places + 1 - digits.length) '0' ++ digits
    let whole := padded.length - places
    x.withSign (String.ofList (padded.take whole) ++
      (if places = 0 then "" else "." ++ String.ofList (padded.drop whole)))

end Binary

end Darkroom
