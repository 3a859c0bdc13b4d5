import Darkroom.Samples.SampleType

/-!
# Arrays of samples

Samples of one type in a shape: a list of sizes, the last of which varies fastest. The number of
samples is always the product of the sizes.

Arrays come from nested lists, whose shape must be even, and change shape without moving a sample.

## Main definitions

* `Samples`: Samples of one type in a shape.
* `Samples.evenShape`: The shape of a nested list.
* `Samples.ofValue`: The array of a nested list.
* `Samples.reshape`: The same samples in another shape.
* `Samples.toSingles`: The samples as real numbers of 32 bits.
-/

namespace Darkroom

/-- The product of sizes. -/
def volume (shape : List Nat) : Nat := shape.foldr (· * ·) 1

/-- Samples of one type in a shape. -/
structure Samples where
  type : SampleType
  shape : List Nat
  cells : Array type.Sample
  size_eq : cells.size = volume shape

namespace Samples

/-- The number of samples. -/
def count (a : Samples) : Nat := a.cells.size

/-- An array from its cells, when they fill the shape. -/
def ofCells? (type : SampleType) (shape : List Nat) (cells : Array type.Sample) : Option Samples :=
  if h : cells.size = volume shape then some ⟨type, shape, cells, h⟩ else none

/-- The part that two shapes begin with. -/
def commonShape : List Nat → List Nat → List Nat
  | a :: as, b :: bs => if a = b then a :: commonShape as bs else []
  | _, _ => []

mutual

/-- The shape of a nested list as far as it is even and at most `depth` deep, and whether it is so
throughout. -/
def shapeWithin : (depth : Nat) → Value → List Nat × Bool
  | 0, .items _ | 0, .tuple _ => ([], false)
  | depth + 1, .items values | depth + 1, .tuple values =>
    let (inner, even) := shapeOfAllWithin depth values
    (values.length :: inner, even)
  | _, _ => ([], true)

def shapeOfAllWithin : (depth : Nat) → List Value → List Nat × Bool
  | _, [] => ([], true)
  | depth, [value] => shapeWithin depth value
  | depth, value :: rest =>
    let (a, evenA) := shapeWithin depth value
    let (b, evenB) := shapeOfAllWithin depth rest
    (commonShape a b, evenA && evenB && a = b)

end

mutual

/-- The values that a nested list holds, in order. -/
def leaves : Value → List Value
  | .items values | .tuple values => leavesOfAll values
  | value => [value]

def leavesOfAll : List Value → List Value
  | [] => []
  | value :: rest => leaves value ++ leavesOfAll rest

end

/-- The most dimensions of an array. -/
def dimensionLimit : Nat := 64

/-- The shape of a nested list, which has to be even throughout. -/
def evenShape (value : Value) : Except Failure (List Nat) :=
  let (shape, even) := shapeWithin dimensionLimit value
  if even then .ok shape
  else if shape.length = dimensionLimit then .error (.tooManyDimensions dimensionLimit)
  else .error (.unevenArray shape.length shape)

/-- The array of a nested list, with every value in it read as a sample. -/
def ofValueBy (type : SampleType) (read : Value → Except Failure type.Sample) (value : Value) :
    Except Failure Samples := do
  let shape ← evenShape value
  let cells ← (leaves value).toArray.mapM read
  match ofCells? type shape cells with
  | some samples => .ok samples
  | none => .error (.unevenArray shape.length shape)

/-- The array of a nested list. -/
def ofValue (type : SampleType) (value : Value) : Except Failure Samples :=
  ofValueBy type type.read value

/-- A shape with an open size as failures show it. -/
def openShapeText (sizes : List Int) : String :=
  -- An open size in front is not shown at all.
  match sizes.dropWhile (· < 0) with
  | [] => "()"
  | [size] => if sizes.length = 1 then s!"({size},)" else s!"({size})"
  | size :: rest =>
    s!"({size}" ++ String.join (rest.map fun n => if n < 0 then ",newaxis" else s!",{n}") ++ ")"

/-- The product of the sizes that are given, as long as it stays within a machine word. -/
def knownVolume? (sizes : List Int) : Option Nat :=
  (sizes.filter (0 ≤ ·)).foldlM (fun product size =>
    let next := product * size.toNat
    if next < machineLimit.toNat then some next else none) 1

/-- The shape that sizes ask for. One of them may be open: it is negative, and takes what the
others leave. -/
def resolveShape (count itemBytes : Nat) (sizes : List Int) : Except Failure (List Nat) :=
  if sizes.any (fun size => machineLimit ≤ size || size < -machineLimit) then
    .error .dimensionTooLarge
  else
    let mismatch : Failure := .cannotReshape count (openShapeText sizes)
    match sizes.filter (· < 0) with
    | [] =>
      match knownVolume? sizes with
      | some known =>
        if known ≠ count then .error mismatch
        else
          -- An array without samples may have sizes whose product is too large.
          match knownVolume? (itemBytes :: sizes.filter (0 < ·)) with
          | some _ => .ok (sizes.map Int.toNat)
          | none => .error .arrayTooLarge
      | none => .error mismatch
    | [_] =>
      match knownVolume? sizes with
      | some known =>
        if known = 0 || count % known ≠ 0 then .error mismatch
        else .ok (sizes.map fun size => if size < 0 then count / known else size.toNat)
      | none => .error mismatch
    | _ => .error .unknownDimensions

/-- The same samples in another shape. -/
def reshape (a : Samples) (sizes : List Int) : Except Failure Samples := do
  let shape ← resolveShape a.count a.type.bytes sizes
  match ofCells? a.type shape a.cells with
  | some samples => .ok samples
  | none => .error (.cannotReshape a.count (openShapeText sizes))

/-- An array with every sample replaced. -/
def mapCells (a : Samples) (type : SampleType) (f : a.type.Sample → type.Sample) : Samples :=
  ⟨type, a.shape, a.cells.map f, by simpa using a.size_eq⟩

/-- The samples as real numbers of 32 bits. -/
def toSingles (a : Samples) : Samples := a.mapCells .single a.type.toSingle

/-- The bytes of all samples. -/
def toBytes (a : Samples) : ByteArray :=
  ⟨(a.cells.toList.flatMap a.type.toBytes).toArray⟩

end Samples

end Darkroom
