import Darkroom.Value.Cast

/-!
# Sections of settings

A section of settings is a table from names to values. Only known names are allowed, and a name
that is missing stands for a default. What is not a table is treated by its parts: the characters
of a text and the items of a list are looked at as if they were names, and only then is it refused.

## Main definitions

* `checkKeys`: Refuses names that a section does not have.
* `Section.flag`, `Section.whole`, …: The value of a name, cast to what it is used as.
-/

namespace Darkroom

/-- A section of settings: its entries. -/
abbrev Section := List (Value × Value)

/-- The texts among values that are all texts. -/
def allTexts? (values : List Value) : Option (List String) :=
  values.mapM fun value => match value with
    | .text s => some s
    | _ => none

/-- Whether a value can be looked up: lists and tables cannot. -/
def isKey : Value → Bool
  | .items _ | .table _ | .collection _ | .tied .. | .again _ => false
  | _ => true

/-- Refuses names that a section does not have. The names are reported once each, in order. Values
that are not names at all are refused without a report. -/
def checkKeys (name : String) (allowed : List String) (raw : Value) : Except Failure Unit := do
  let keys ← raw.toElements
  if !keys.all isKey then .error .wrongType
  else
    let unknown := keys.filter fun key => match key with
      | .text s => !allowed.contains s
      | _ => true
    match allTexts? unknown with
    | none => .error .wrongType
    | some [] => .ok ()
    | some names => .error (.unknownKeys name (names.mergeSort.eraseReps))

/-- The entries of a section, for what is a table. -/
def sectionEntries (value : Value) : Except Failure Section :=
  match value.opened with
  | .table entries => .ok entries
  | _ => .error .wrongAttribute

namespace Section

variable (entries : Section)

/-- The value of a name, or a default. -/
def get (key : String) (default : Value) : Value := (Value.lookup key entries).getD default

/-- The value of a name as a flag. -/
def flag (key : String) (default : Bool) : Bool := (get entries key (.flag default)).isTrue

/-- The value of a name as a whole number. -/
def whole (key : String) (default : Int) : Except Failure Int :=
  (get entries key (.whole default)).toWhole

/-- The value of a name as a real number. -/
def real (key : String) (default : Double) : Except Failure Double :=
  (get entries key (.real default)).toReal

/-- The value of a name as a text. -/
def text (key : String) (default : String) : Except Failure String :=
  (get entries key (.text default)).asText

/-- The value of a name, unless there is none or it is nothing. -/
def option {α : Type} (cast : Value → Except Failure α) (key : String) :
    Except Failure (Option α) :=
  match get entries key .null with
  | .null => .ok none
  | value => some <$> cast value

/-- The numbers of a value with parts, which must be as many as `count`. Nothing stays nothing. -/
def reals (count : Nat) (label : String) (value : Value) : Except Failure (Option (List Double)) :=
  match value with
  | .null => .ok none
  | value => do
    let parts ← value.toElements
    if parts.length ≠ count then .error (.valueCount label count)
    else some <$> parts.mapM Value.toReal

/-- Two numbers under a name. -/
def pair (label key : String) (default : Value) : Except Failure (Option (Double × Double)) := do
  match ← reals 2 label (get entries key default) with
  | some [a, b] => return some (a, b)
  | _ => return none

/-- Four numbers under a name. -/
def quad (label key : String) (default : Value) :
    Except Failure (Option (Double × Double × Double × Double)) := do
  match ← reals 4 label (get entries key default) with
  | some [a, b, c, d] => return some (a, b, c, d)
  | _ => return none

end Section

end Darkroom
