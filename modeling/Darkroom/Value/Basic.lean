import Darkroom.Calendar
import Darkroom.Numeric.Number

/-!
# Values of settings

Settings files, camera reports and handles hold values of any kind under any name. `Value` is such
a value; every operation that needs a value of a certain kind goes through a cast, so that a value
of the wrong kind is a failure and never a crash.

A list or a table may contain itself. Such a value is written once, under a mark, and where it comes
again inside itself only the mark stands. It has parts like any other value: `Value.opened` puts
the whole in the place of the mark.

## Main definitions

* `Value`: A value of any kind.
* `Value.alike`: Equality of values, part by part.
* `Value.isTrue`: Whether a value counts as set.
* `Value.same`: Equality of values, where numbers agree whatever their kind.
* `Value.ofMembers`: The set of some members, in the order of sets.
* `Value.opened`: A value that is no mere mark.
* `Value.elements?`: The parts of a value that has parts.
* `Value.named`: The table of entries with texts as keys.
* `Value.lookup`: The entry of a table under a key.
-/

namespace Darkroom

/-- A value of any kind. -/
inductive Value where
  | null
  | flag (b : Bool)
  | whole (n : Int)
  | real (x : Double)
  | text (s : String)
  | bytes (data : ByteArray)
  | day (d : Day)
  | moment (m : Moment)
  | items (values : List Value)
  | tuple (values : List Value)
  | table (entries : List (Value × Value))
  | collection (members : List Value)
  /-- A value that contains itself, where its mark stands. -/
  | tied (mark : Nat) (value : Value)
  /-- What stands for the value of a mark inside itself. -/
  | again (mark : Nat)
  deriving Inhabited

namespace Value

mutual

/-- Whether two values are written alike, part by part. -/
def alike : Value → Value → Bool
  | null, null => true
  | flag a, flag b => a == b
  | whole m, whole n => m == n
  | real x, real y => x == y
  | text s, text t => s == t
  | bytes a, bytes b => a == b
  | day d, day e => d == e
  | moment m, moment n => m == n
  | items as, items bs | tuple as, tuple bs | collection as, collection bs => allAlike as bs
  | table as, table bs => entriesAlike as bs
  | tied m a, tied n b => m == n && alike a b
  | again m, again n => m == n
  | _, _ => false

def allAlike : List Value → List Value → Bool
  | [], [] => true
  | a :: as, b :: bs => alike a b && allAlike as bs
  | _, _ => false

def entriesAlike : List (Value × Value) → List (Value × Value) → Bool
  | [], [] => true
  | (key, a) :: as, (other, b) :: bs => alike key other && alike a b && entriesAlike as bs
  | _, _ => false

end

instance : BEq Value := ⟨alike⟩

/-- Whether a value counts as set: not nothing, not zero, not empty. -/
def isTrue : Value → Bool
  | null => false
  | flag b => b
  | whole n => n ≠ 0
  | real x => !x.isZero
  | text s => !s.isEmpty
  | bytes data => !data.isEmpty
  | day _ | moment _ => true
  | items values | tuple values | collection values => !values.isEmpty
  | table entries => !entries.isEmpty
  | tied _ value => isTrue value
  | again _ => true

/-- The number that a value is; a flag counts as one or zero. -/
def number? : Value → Option Number
  | flag b => some (.whole (if b then 1 else 0))
  | whole n => some (.whole n)
  | real x => some (.real x)
  | _ => none

/-- Whether two numbers have one value. A whole number equals a real one only when the real one is
finite and exactly that number. -/
def sameNumber : Number → Number → Bool
  | .whole m, .whole n => m = n
  | .real x, .real y => x.equal y
  | .whole n, .real x | .real x, .whole n => x.isFinite && x.toRat = n

/-- Equality of values that may serve as keys. -/
def same (a b : Value) : Bool :=
  match a, b with
  | moment m, moment n => m.same n
  | _, _ =>
    match a.number?, b.number? with
    | some x, some y => sameNumber x y
    | _, _ => a == b

/-- The natural number that a value is, if it is one. -/
def natural? (value : Value) : Option Nat :=
  match value.number? with
  | some (.whole n) => if 0 ≤ n then some n.toNat else none
  | some (.real x) =>
    if x.isFinite && 0 ≤ x.toRat && x.toRat.den = 1 then some x.toRat.num.toNat else none
  | none => none

/-- How many places there are for the members of a set of `count`: a power of two, and more than
twice as many as members, except that eight do for up to four of them. -/
def places (count : Nat) : Nat := if count ≤ 4 then 8 else twoTo (Nat.log2 (2 * count) + 1)

/-- The set of some members. Each natural number has its place, which follows from its remainder;
when all members are natural numbers with places of their own, they come in the order of these.
Other members come as they were written. -/
def ofMembers (members : List Value) : Value :=
  let numbers := members.filterMap fun member =>
    member.natural?.map fun n => (n % places members.length, member)
  let sorted := numbers.mergeSort fun a b => a.1 ≤ b.1
  if numbers.length = members.length && (numbers.map Prod.fst).Nodup then
    collection (sorted.map Prod.snd)
  else collection members

/-- Whether a value equals one of some whole numbers. -/
def isOneOf (a : Value) (numbers : List Int) : Bool := numbers.any fun n => a.same (whole n)

mutual

/-- A value with another one in the place of a mark. A mark that is used anew inside it hides the
one outside. -/
def fill (mark : Nat) (all : Value) : Value → Value
  | items values => items (fillAll mark all values)
  | tuple values => tuple (fillAll mark all values)
  | table entries => table (fillEntries mark all entries)
  | tied inner value => tied inner (if inner = mark then value else fill mark all value)
  | again inner => if inner = mark then all else again inner
  | value => value

def fillAll (mark : Nat) (all : Value) : List Value → List Value
  | [] => []
  | value :: rest => fill mark all value :: fillAll mark all rest

def fillEntries (mark : Nat) (all : Value) : List (Value × Value) → List (Value × Value)
  | [] => []
  | (key, value) :: rest => (key, fill mark all value) :: fillEntries mark all rest

end

/-- A value with its parts, each of them complete, even if it contains itself. -/
def opened : Value → Value
  | tied mark value => fill mark (tied mark value) value
  | value => value

/-- The parts of a value: the items of a list, the characters of a text, the numbers of bytes, the
keys of a table. -/
def elements? (value : Value) : Option (List Value) :=
  match value.opened with
  | items values | tuple values | collection values => some values
  | text s => some (s.toList.map fun c => text c.toString)
  | bytes data => some (data.toList.map fun b => whole b.toNat)
  | table entries => some (entries.map Prod.fst)
  | _ => none

/-- A text that may be missing. -/
def optionalText (s : Option String) : Value := (s.map text).getD null

/-- A real number that may be missing. -/
def optionalReal (x : Option Double) : Value := (x.map real).getD null

/-- The table of entries with texts as keys. -/
def named (entries : List (String × Value)) : Value :=
  table (entries.map fun (key, value) => (text key, value))

/-- The entry under a key, in entries that hold each key once. -/
def lookup (key : String) (entries : List (Value × Value)) : Option Value :=
  (entries.find? fun entry => entry.1.same (text key)).map Prod.snd

/-- The entries with one more; a key that is already there keeps its place and takes the new
value. -/
def insert (key value : Value) : List (Value × Value) → List (Value × Value)
  | [] => [(key, value)]
  | entry :: rest =>
    if entry.1.same key then (entry.1, value) :: rest else entry :: insert key value rest

end Value

end Darkroom
