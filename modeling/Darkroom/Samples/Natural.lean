import Darkroom.Samples.Basic

/-!
# Arrays of whole numbers

The array of whole numbers that a nested list of any values stands for. Its values are first brought
to one kind, the least that holds them all: flags count as numbers, whole numbers beside real ones
become real, and beside a text everything is written out. Only then is each of them cast to a whole
number, so that `1.5` is one in a list of numbers, and no number at all in a list with a text.

## Main definitions

* `LeafKind`: The kinds that values are brought to.
* `LeafKind.join`: The least kind that holds two others.
* `Samples.wholesOfValue`: The array of whole numbers of a nested list.
-/

namespace Darkroom

/-- The kinds that values are brought to. A whole number is large when only a machine word without a
sign holds it. -/
inductive LeafKind where
  | flag
  | whole
  | large
  | real
  | text
  | other
  deriving DecidableEq, Repr

/-- Whole numbers with a sign in 64 bits. -/
def longType : WholeType := ⟨true, .eight⟩

namespace LeafKind

/-- The kind of a value by itself. -/
def ofValue : Value → LeafKind
  | .flag _ => flag
  | .whole n =>
    if longType.Holds n then whole
    else if 0 ≤ n && n < 2 * machineLimit then large
    else other
  | .real _ => real
  | .text _ => text
  | _ => other

/-- The least kind that holds two others. No kind of whole numbers holds both those with a sign and
the large ones. -/
def join : LeafKind → LeafKind → LeafKind
  | other, _ | _, other => other
  | text, _ | _, text => text
  | real, _ | _, real => real
  | flag, b => b
  | a, flag => a
  | whole, large | large, whole => real
  | a, _ => a

/-- The kind that some values are brought to. -/
def ofValues (values : List Value) : LeafKind := (values.map ofValue).foldl join flag

/-- A text without zeros at its end. -/
def withoutZeros (s : String) : List Char :=
  (s.toList.reverse.dropWhile (· = Char.ofNat 0)).reverse

/-- A real number as a whole one in a machine word. One that no word holds becomes the least. -/
def wordOfReal (x : Double) : longType.Sample :=
  match x.truncate? with
  | some n => if h : longType.Holds n then ⟨n, h⟩ else longType.wrap longType.low
  | none => longType.wrap longType.low

/-- A value of a kind as a whole number. -/
def read (kind : LeafKind) (value : Value) : Except Failure longType.Sample :=
  match kind with
  | flag | whole | large => return longType.wrap (← value.toWhole)
  | real => return wordOfReal (← value.toReal)
  | text => do
    let cs := withoutZeros (← value.asText)
    let shown := Value.toWhole.clipped ("np.str_(" ++ quoted (String.ofList cs) ++ ")")
    longType.ofWhole (← readWhole 10 shown cs)
  | other => longType.read value

end LeafKind

/-- The array of whole numbers of a nested list. -/
def Samples.wholesOfValue (value : Value) : Except Failure Samples :=
  ofValueBy (.whole longType) (LeafKind.ofValues (leaves value)).read value

end Darkroom
