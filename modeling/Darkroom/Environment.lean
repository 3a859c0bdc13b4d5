import Darkroom.Calendar
import Darkroom.Camera.Container
import Darkroom.Camera.Report
import Darkroom.Files.Content
import Darkroom.Raw.Handle
import Darkroom.Yaml.Meaning

/-!
# Surroundings

What the operations find around them and do not change: the libraries that are installed and what
they read in the files of others, the program that reports about pictures, the clock, the current
directory and those of the users, and what becomes of opening a RAW file.

How a library reads is its own affair. The operations rely on nothing but that it gives tags or a
document, or fails; the readers of this program stand in wherever no others are given.

## Main definitions

* `Libraries`: The libraries that are installed.
* `Readers`: What they read.
* `Environment`: The surroundings of an operation.
* `Environment.exifOfFile`: What is said about a file.
-/

namespace Darkroom

/-- The libraries that are installed; of the RAW library, the version is known. -/
structure Libraries where
  raw : Option String
  documents : Bool
  tags : Bool
  pictures : PictureLibraries

/-- What is read in the files of others: the tags of a picture, unless the library fails, and the
value of a document. A report is read as long as there is room for its nesting. -/
structure Readers where
  tags : ByteArray → Option Exif.Tags
  document : ByteArray → Except Failure Value
  reportRoom : Nat

/-- The readers of this program. The room is what is left of the 1000 calls that may be open at a
time when a report is read. -/
def Readers.standard : Readers where
  tags := Tiff.read?
  document data := Yaml.read (.ofBytes data)
  reportRoom := 989

/-- The surroundings of an operation. Opening a RAW file gives a handle or fails with a reason. -/
structure Environment where
  libraries : Libraries
  reporter : Reporter
  clock : Moment
  directory : Path
  homes : List (String × Path)
  opening : Except String Handle
  readers : Readers := .standard

namespace Environment

/-- A path that a user names, from the top of the file system. -/
def userPath (env : Environment) (text : String) : Except Failure Path := do
  Path.resolve env.directory (← (Path.ofText text).expandHome env.homes)

/-- What the tags of a file say, if the library for tags is there. -/
def exifOfBytes (env : Environment) (data : ByteArray) : Except Failure Exif :=
  if env.libraries.tags then Exif.ofReading (env.readers.tags data) else .ok .empty

/-- The endings of files with tags that can be read, in small letters. -/
def taggedEndings : List String :=
  [".cr2", ".dng", ".nef", ".arw", ".rw2", ".orf", ".pef", ".srw", ".tif", ".tiff"]

/-- What is said about a file: by its tags, if it may have any, and otherwise in a report. -/
def exifOfFile (env : Environment) (files : Tree Content) (path : Path) : Except Failure Exif := do
  let tags ← if taggedEndings.contains (lowerCase path.suffix) then do
      env.exifOfBytes (← files.read env.directory path).bytes
    else .ok .empty
  if tags.isEmpty then Exif.ofReport env.readers.reportRoom env.reporter else return tags

end Environment

end Darkroom
