import Darkroom.Failure
import Darkroom.Text.Half

/-!
# Paths

Names of files. A path starts at the top of the file system or at the current directory, and its
parts are separated by slashes; empty parts and single points are dropped, so that two spellings of
a path that differ only in them are one path. Two points, which lead one directory up, stay until
a path is resolved.

## Main definitions

* `Path`: A path.
* `Path.ofText`, `Path.text`: Reading and writing a path.
* `Path.name`, `Path.suffix`, `Path.parent`: The last part, its ending, and the path before it.
* `Path.join`, `Path.resolve`: A path inside another, and a path without two points.
-/

namespace Darkroom

/-- Cuts characters at the last occurrence of one: what stands before it, and what after it. -/
def cutAtLast? (mark : Char) (cs : List Char) : Option (List Char × List Char) :=
  let after := (cs.reverse.takeWhile (· ≠ mark)).reverse
  if after.length < cs.length then some (cs.take (cs.length - after.length - 1), after) else none

/-- A path: the slashes at its front, which are none, one or two, and its parts. -/
structure Path where
  slashes : Nat
  parts : List String
  deriving DecidableEq, Repr

namespace Path

/-- Reads a path. Exactly two slashes at the front are kept, more count as one. -/
def ofText (text : String) : Path :=
  let cs := text.toList
  let slashes := (cs.takeWhile (· = '/')).length
  let parts := (cs.splitOn '/').map String.ofList
  ⟨if slashes = 2 then 2 else min slashes 1, parts.filter fun part => part ≠ "" && part ≠ "."⟩

/-- Writes a path. The path without parts is a point. -/
def text (p : Path) : String :=
  if p.slashes = 0 && p.parts.isEmpty then "."
  else String.ofList (List.replicate p.slashes '/') ++ "/".intercalate p.parts

/-- Whether a path starts at the top of the file system. -/
def isAbsolute (p : Path) : Bool := p.slashes ≠ 0

/-- The last part of a path. -/
def name (p : Path) : String := p.parts.getLast?.getD ""

/-- The path before the last part. -/
def parent (p : Path) : Path := ⟨p.slashes, p.parts.dropLast⟩

/-- The name of a path up to its last point and from it on. A point at either end does not
count. -/
def splitName (p : Path) : String × String :=
  match cutAtLast? '.' p.name.toList with
  | some (stem, ending) =>
    if stem.isEmpty || ending.isEmpty then (p.name, "")
    else (String.ofList stem, String.ofList ('.' :: ending))
  | none => (p.name, "")

/-- The ending of a path's name, with its point. -/
def suffix (p : Path) : String := p.splitName.2

/-- A path with another name. -/
def withName (p : Path) (name : String) : Path := ⟨p.slashes, p.parts.dropLast ++ [name]⟩

/-- A path with another ending. A path without a name has none. -/
def withSuffix (p : Path) (suffix : String) : Except Failure Path :=
  if p.name.isEmpty then .error (.namelessPath p.text)
  else .ok (p.withName (p.splitName.1 ++ suffix))

/-- A path as seen from another one. -/
def join (base p : Path) : Path := if p.isAbsolute then p else ⟨base.slashes, base.parts ++ p.parts⟩

/-- Parts without two points: each of them undoes the part before it. -/
def climb (parts : List String) : List String :=
  parts.foldl (fun climbed part => if part = ".." then climbed.dropLast else climbed ++ [part]) []

/-- Whether a name contains half of a character, other than one that stands for a byte. -/
def hasHalf (name : String) : Bool := name.toList.any fun c => isHalf c && !isByteHalf c

/-- Whether a name contains NUL. -/
def hasNul (name : String) : Bool := name.contains (Char.ofNat 0)

/-- A path from the top of the file system, seen from a directory. Names are looked up one after the
other, and none of them may contain NUL or half of a character. -/
def resolve (directory p : Path) : Except Failure Path := do
  for name in p.parts do
    if hasHalf name then .error .halfInPath
    if hasNul name then .error .nulInPath
  return ⟨1, climb (directory.join p).parts⟩

/-- A path that begins with a tilde starts at a home directory: at one's own, or at that of the user
whose name follows. The directories are listed by how they are asked for. -/
def expandHome (homes : List (String × Path)) (p : Path) : Except Failure Path :=
  match p.parts with
  | first :: rest =>
    if p.isAbsolute || first.toList.head? ≠ some '~' then .ok p
    else if hasHalf first then .error .halfInPath
    else if hasNul first then .error .nulInName
    else
      match homes.lookup first with
      | some home => .ok ⟨home.slashes, home.parts ++ rest⟩
      | none => .error .noHome
  | [] => .ok p

/-- The ending of a path's name that stands for a format, with its point; points at the front of a
name do not count, but one at the end does. -/
def extension (p : Path) : String :=
  let cs := p.name.toList
  let points := (cs.takeWhile (· = '.')).length
  match cutAtLast? '.' (cs.drop points) with
  | some (_, ending) => String.ofList ('.' :: ending)
  | none => ""

end Path

end Darkroom
