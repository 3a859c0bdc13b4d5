import Darkroom.Value.Cast

/-!
# Devices

The families of phones that models for development know by number. A phone belongs to a family when
the family's name is part of its model name; the first family in the list wins.

## Main definitions

* `Device`: A family of phones.
* `Device.ofModel`: The family of a model.
* `Device.ofValue`: The family of a model that may be given as any value.
* `Device.number`: The number of a family.
-/

namespace Darkroom

/-- Whether some characters stand side by side in others. -/
def occursIn (part : List Char) : List Char → Bool
  | [] => part.isEmpty
  | c :: rest => part.isPrefixOf (c :: rest) || occursIn part rest

/-- A family of phones. -/
inductive Device where
  | pixel
  | samsung
  | iphone
  | other
  deriving DecidableEq, Repr

namespace Device

/-- The number of a family. -/
def number : Device → Int
  | pixel => 0
  | samsung => 1
  | iphone => 2
  | other => -1

/-- The names of the families. -/
def names : List (String × Device) :=
  [("iPhone", iphone), ("Samsung", samsung), ("Galaxy", samsung), ("Pixel", pixel)]

/-- The family of a model. -/
def ofModel (model : Option String) : Device :=
  match names.find? fun (name, _) => occursIn name.toList (model.getD "").toList with
  | some (_, device) => device
  | none => other

/-- The family of a model that may be given as any value. Of a list or a table, the texts in it
count as a whole. -/
def ofValue (model : Value) : Except Failure Device :=
  match model with
  | .text s => .ok (ofModel (some s))
  | model => do
    if !model.isTrue then return other
    let parts ← model.toElements
    match names.find? fun (name, _) => parts.any (·.same (.text name)) with
    | some (_, device) => return device
    | none => return other

end Device

end Darkroom
