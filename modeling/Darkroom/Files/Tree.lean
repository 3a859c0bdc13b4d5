import Darkroom.Files.Path

/-!
# Trees of files

What a file system holds: directories, and files with their contents. Contents are of any kind, so
that a file may hold what a reader of it finds, and not only bytes.

A path is followed part by part from a directory. Every part on the way has to be a directory, two
points included; so a path through a missing directory leads nowhere, even if it comes back from
there. Making directories is the exception: it makes what is missing on the way.

## Main definitions

* `Tree`: A tree of files.
* `Tree.read`, `Tree.write`: The contents of a file.
* `Tree.makeDirectory`: A directory and all directories around it.
* `Tree.holds`: Whether there is anything at a path.
-/

namespace Darkroom

/-- What stands at a place of a tree. -/
inductive TreeEntry (α : Type) where
  | directory
  | file (content : α)

/-- A place in a tree: the names that lead there from the top. -/
abbrev Place := List String

/-- A tree of files. A later entry for a place comes before an earlier one. -/
structure Tree (α : Type) where
  entries : List (Place × TreeEntry α)

namespace Tree

variable {α : Type}

/-- What stands at a place. The top is a directory. -/
def entry? (t : Tree α) (place : Place) : Option (TreeEntry α) :=
  if place.isEmpty then some .directory else t.entries.lookup place

/-- Puts something at a place. -/
def put (t : Tree α) (place : Place) (entry : TreeEntry α) : Tree α :=
  ⟨(place, entry) :: t.entries.filter (·.1 ≠ place)⟩

/-- The files of a tree. -/
def files (t : Tree α) : List (Place × α) :=
  t.entries.filterMap fun (place, entry) =>
    match entry with
    | .file content => some (place, content)
    | .directory => none

/-- The most bytes of a path. -/
def pathLimit : Nat := 4095

/-- The names of a path from a directory. A path that could not even be written down is refused
before any name is looked up. -/
def names (directory path : Path) : Except Failure (List String) :=
  if Path.hasHalf path.text then .error .halfInPath
  else if Path.hasNul path.text then .error .nulInName
  else if pathLimit < path.text.utf8ByteSize then .error .nameTooLong
  else .ok (directory.join path).parts

/-- Refuses names that no file can have. -/
def checkName (name : String) : Except Failure Unit :=
  if 255 < name.utf8ByteSize then .error .nameTooLong else .ok ()

/-- The place that names lead to from another one. -/
def follow (t : Tree α) (place : Place) : List String → Except Failure Place
  | [] => .ok place
  | name :: rest =>
    match t.entry? place with
    | none => .error .missingFile
    | some (.file _) => .error .notDirectory
    | some .directory => do
      checkName name
      follow t (if name = ".." then place.dropLast else place ++ [name]) rest

/-- The place that a path leads to from a directory. -/
def locate (t : Tree α) (directory path : Path) : Except Failure Place := do
  t.follow [] (← names directory path)

/-- Whether there is anything at a path. Where a path leads nowhere there is nothing, but a name
that is too long is a failure. -/
def holds (t : Tree α) (directory path : Path) : Except Failure Bool :=
  match t.locate directory path with
  | .ok place => .ok (t.entry? place).isSome
  | .error .nameTooLong => .error .nameTooLong
  | .error _ => .ok false

/-- The contents of a file. -/
def read (t : Tree α) (directory path : Path) : Except Failure α := do
  match t.entry? (← t.locate directory path) with
  | some (.file content) => return content
  | some .directory => .error .isDirectory
  | none => .error .missingFile

/-- Writes a file, whether it is there or not. -/
def write (t : Tree α) (directory path : Path) (content : α) : Except Failure (Tree α) := do
  let place ← t.locate directory path
  match t.entry? place with
  | some .directory => .error .isDirectory
  | _ => return t.put place (.file content)

/-- Makes the directories that are missing on the way that names lead from a place. -/
def makeWay (t : Tree α) (place : Place) : List String → Except Failure (Tree α)
  | [] => .ok t
  | name :: rest =>
    if name = ".." then makeWay t place.dropLast rest
    else do
      checkName name
      let next := place ++ [name]
      match t.entry? next with
      | none => makeWay (t.put next .directory) next rest
      | some .directory => makeWay t next rest
      | some (.file _) => .error (if rest.isEmpty then .fileExists else .notDirectory)

/-- The directories on the way that names lead from a place, made up to the first that cannot be. -/
def beginWay (t : Tree α) (place : Place) : List String → Tree α
  | [] => t
  | name :: rest =>
    if name = ".." then beginWay t place.dropLast rest
    else
      let next := place ++ [name]
      match checkName name, t.entry? next with
      | .ok _, none => beginWay (t.put next .directory) next rest
      | .ok _, some .directory => beginWay t next rest
      | _, _ => t

/-- What stays of a directory that could not be made: those around it that could. -/
def beginDirectory (t : Tree α) (directory path : Path) : Tree α :=
  match names directory path with
  | .ok names => t.beginWay [] names
  | .error _ => t

/-- Makes a directory and all directories around it, unless they are there. -/
def makeDirectory (t : Tree α) (directory path : Path) : Except Failure (Tree α) := do
  t.makeWay [] (← names directory path)

end Tree

end Darkroom
