import Darkroom.Yaml.Cursor

/-!
# Tokens

The parts of a document between which its structure is decided: indicators, names, scalars, and
the marks of where a block begins and ends. The last are not written; they follow from columns.

## Main definitions

* `Yaml.Token`: A part of a document.
* `Yaml.TagName`: A tag as it is written: a handle and a suffix.
-/

namespace Darkroom

namespace Yaml

/-- A tag as it is written. Without a handle the suffix is the whole tag. -/
structure TagName where
  handle : Option String
  suffix : String
  deriving DecidableEq, Repr

/-- What a line that starts with a percent sign says. -/
inductive Directive where
  | version (major minor : Nat)
  | tag (handle beginning : String)
  | other
  deriving DecidableEq, Repr

/-- A part of a document. A scalar is plain when it stands without quotes and without a block
indicator. -/
inductive Token where
  | directive (d : Directive)
  | documentStart
  | documentEnd
  | streamEnd
  | blockSequenceStart
  | blockMappingStart
  | blockEnd
  | flowSequenceStart
  | flowSequenceEnd
  | flowMappingStart
  | flowMappingEnd
  | flowEntry
  | blockEntry
  | key
  | value
  | reference (name : String)
  | anchor (name : String)
  | tag (name : TagName)
  | scalar (text : String) (plain : Bool)
  deriving DecidableEq, Repr

end Yaml

end Darkroom
