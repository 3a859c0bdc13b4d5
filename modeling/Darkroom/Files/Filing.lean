import Darkroom.Environment
import Darkroom.Output.Record

/-!
# Filing

Actions that change files. An action that fails keeps what it has done before: directories that it
made on the way stay.

## Main definitions

* `Filing`: An action on files.
* `Filing.store`: Writes a file into a directory that is made if it is missing.
* `Filing.storePicture`, `Filing.storeArchive`, `Filing.storeRecord`: Writes what commands produce.
* `Tree.archiveAt?`: The archive at a path.
-/

namespace Darkroom

/-- An action on files. -/
abbrev Filing := ExceptT Failure (StateM (Tree Content))

namespace Filing

/-- Makes a directory and all directories around it. Those that are made before one that cannot be
stay. -/
def makeDirectory (env : Environment) (path : Path) : Filing Unit := do
  let files ← get
  match files.makeDirectory env.directory path with
  | .ok made => set made
  | .error failure =>
    set (files.beginDirectory env.directory path)
    throw failure

/-- Writes a file. -/
def write (env : Environment) (path : Path) (content : Content) : Filing Unit := do
  set (← (← get).write env.directory path content)

/-- Writes a file into a directory that is made if it is missing. -/
def store (env : Environment) (path : Path) (content : Content) : Filing Unit := do
  makeDirectory env path.parent
  write env path content

/-- Writes a picture in the format that its path asks for. A picture that turns out not to fit the
format leaves no file. -/
def storePicture (env : Environment) (path : Path) (buffer : PixelBuffer) : Filing Unit := do
  makeDirectory env path.parent
  let picture ← StoredPicture.ofBuffer env.libraries.pictures path buffer
  let files ← (← get).write env.directory path (.picture picture)
  picture.checkEncodable
  set files

/-- Writes an archive. -/
def storeArchive (env : Environment) (path : Path) (archive : TensorArchive) : Filing Unit := do
  makeDirectory env path.parent
  write env (TensorArchive.path path) (.archive archive)

/-- Writes a table as records are kept. -/
def storeEntries (env : Environment) (path : Path) (entries : List (String × Value)) :
    Filing Unit := do
  makeDirectory env path.parent
  write env path (.text (← Record.textOfEntries entries))

/-- Writes a record. -/
def storeRecord (env : Environment) (path : Path) (record : Record) : Filing Unit :=
  storeEntries env path record.entries

end Filing

/-- The archive at a path, if there is one. -/
def Tree.archiveAt? (files : Tree Content) (directory path : Path) : Option TensorArchive :=
  (files.read directory path).toOption.bind Content.archive?

end Darkroom
