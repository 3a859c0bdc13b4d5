import Darkroom.Numeric.LowBytes
import Darkroom.Numeric.Power
import Darkroom.Value.Cast

/-!
# Types of samples

A sample is a whole number of 8 to 64 bits, with or without a sign, or a real number of 32 or 64
bits. A whole sample carries the proof that it lies within its type, so a picture never holds a
number that its files could not store.

## Main definitions

* `WholeType`, `SampleType`: The types of whole samples, and of all samples.
* `WholeType.Sample`, `SampleType.Sample`: A sample of a type.
* `WholeType.wrap`: A whole number moved into a type by multiples of its size.
* `SampleType.read`: The sample that a value stands for.
* `SampleType.toBytes`: The bytes of a sample, the lowest first.
-/

namespace Darkroom

/-- The width of a whole sample. -/
inductive Width where
  | one
  | two
  | four
  | eight
  deriving DecidableEq, Repr

/-- The number of bytes. -/
def Width.bytes : Width → Nat
  | one => 1
  | two => 2
  | four => 4
  | eight => 8

/-- A type of whole samples. -/
structure WholeType where
  isSigned : Bool
  width : Width
  deriving DecidableEq, Repr

/-- The least positive number that is too large for a machine word with a sign. -/
def machineLimit : Int := 0x8000000000000000

namespace WholeType

/-- Bytes without a sign. -/
def byte : WholeType := ⟨false, .one⟩

/-- Sixteen bits without a sign. -/
def word : WholeType := ⟨false, .two⟩

/-- The number of bits. -/
def bits (t : WholeType) : Nat := 8 * t.width.bytes

/-- The number of samples that a type has. -/
def size (t : WholeType) : Int := twoTo t.bits

/-- The least sample. -/
def low (t : WholeType) : Int := if t.isSigned then -(twoTo (t.bits - 1) : Int) else 0

/-- Whether a type has a number. -/
def Holds (t : WholeType) (n : Int) : Prop := t.low ≤ n ∧ n < t.low + t.size

instance (t : WholeType) (n : Int) : Decidable (t.Holds n) := inferInstanceAs (Decidable (_ ∧ _))

/-- A whole sample. -/
abbrev Sample (t : WholeType) := { n : Int // t.Holds n }

theorem size_pos (t : WholeType) : 0 < t.size := Int.natCast_pos.2 (twoTo_pos _)

/-- The sample that differs from a number by a multiple of the type's size. -/
def wrap (t : WholeType) (n : Int) : t.Sample :=
  ⟨(n - t.low) % t.size + t.low, by
    have h := t.size_pos
    have := Int.emod_nonneg (n - t.low) (by omega : t.size ≠ 0)
    have := Int.emod_lt_of_pos (n - t.low) h
    exact ⟨by omega, by omega⟩⟩

instance (t : WholeType) : Inhabited t.Sample := ⟨t.wrap 0⟩

/-- The name of a type. -/
def name (t : WholeType) : String := (if t.isSigned then "int" else "uint") ++ toString t.bits

/-- The least number that is moved to a sample at all; below it and above the widest type lies
what no machine word holds. -/
def readsBelow (t : WholeType) : Int :=
  if !t.isSigned && (t.width = .four || t.width = .eight) then 2 * machineLimit else machineLimit

/-- The sample that a whole number is. -/
def ofWhole (t : WholeType) (n : Int) : Except Failure t.Sample :=
  if h : t.Holds n then .ok ⟨n, h⟩
  else if n < -machineLimit || t.readsBelow ≤ n then .error .beyondMachine
  else .error (.outOfBounds n t.name)

/-- The sample that a value stands for. A real number loses its fraction, and is moved into the type
if a machine word holds it. -/
def read (t : WholeType) (value : Value) : Except Failure t.Sample := do
  let n ← value.toWhole
  match value with
  | .real _ =>
    if n < -machineLimit || t.readsBelow ≤ n then .error .beyondMachine else return t.wrap n
  | _ => t.ofWhole n

end WholeType

/-- A type of samples. -/
inductive SampleType where
  | whole (t : WholeType)
  | single
  | double
  deriving DecidableEq, Repr

namespace SampleType

/-- A sample. -/
def Sample : SampleType → Type
  | whole t => t.Sample
  | single => Single
  | double => Double

instance : (t : SampleType) → Inhabited t.Sample
  | whole t => inferInstanceAs (Inhabited t.Sample)
  | single => inferInstanceAs (Inhabited Single)
  | double => inferInstanceAs (Inhabited Double)

instance : (t : SampleType) → DecidableEq t.Sample
  | whole t => inferInstanceAs (DecidableEq t.Sample)
  | single => inferInstanceAs (DecidableEq Single)
  | double => inferInstanceAs (DecidableEq Double)

/-- The number of bytes of a sample. -/
def bytes : SampleType → Nat
  | whole t => t.width.bytes
  | single => 4
  | double => 8

/-- The number of bits of a sample. -/
def bits (t : SampleType) : Nat := 8 * t.bytes

/-- The name of a type. -/
def name : SampleType → String
  | whole t => t.name
  | single => "float32"
  | double => "float64"

/-- Every type. -/
def all : List SampleType :=
  [false, true].flatMap (fun isSigned =>
    [Width.one, .two, .four, .eight].map fun width => whole ⟨isSigned, width⟩) ++ [single, double]

/-- The type of a name. -/
def ofName? (name : String) : Option SampleType := all.find? (·.name = name)

/-- The real number that a value stands for; nothing is not-a-number. -/
def readDouble : Value → Except Failure Double
  | .null => .ok .nan
  | value => value.toReal

/-- The sample that a value stands for. -/
def read : (t : SampleType) → Value → Except Failure t.Sample
  | whole t, value => t.read value
  | single, value => return (← readDouble value).convert
  | double, value => readDouble value

/-- The sample as a real number of 32 bits. -/
def toSingle : (t : SampleType) → t.Sample → Single
  | whole _, n => Binary.ofInt n.val
  | single, x => x
  | double, x => Binary.convert (f := binary64) x

/-- The bytes of a sample, the lowest first. -/
def toBytes : (t : SampleType) → t.Sample → List UInt8
  | whole t, n => lowBytes t.width.bytes (n.val % t.size).toNat
  | single, x => lowBytes 4 (Binary.toBits (f := binary32) x)
  | double, x => lowBytes 8 (Binary.toBits (f := binary64) x)

end SampleType

end Darkroom
