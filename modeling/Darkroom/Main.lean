import Darkroom.Command.Run

/-!
# The program

The command line as a program. Everything it does is decided by `CommandLine.run`; what stands here
reads the files that are named, hands them over, and writes back what has become of them.

No library for RAW files is linked into this program, so it reads its configuration, opens its
journal, and reports that the library is missing.

## Main definitions

* `surroundings`: The surroundings of the program.
* `main`: The program.
-/

namespace Darkroom

/-- The usage of the program, in a line. -/
def usageText : String :=
  "usage: " ++ programName ++ " info|render|extract|thumbnail|version [options] [input]"

/-- The surroundings of the program. Nothing that carries a moment is written without the library
for RAW files, so the clock stands still. -/
def surroundings : IO Environment := do
  let directory ← IO.currentDir
  let home ← IO.getEnv "HOME"
  return {
    libraries := ⟨none, true, true, ⟨true, true⟩⟩
    reporter := .missing
    clock := ⟨⟨1970, 1, 1⟩, 0, 0, 0, 0, some 0⟩
    directory := .ofText directory.toString
    homes := home.toList.map fun path => ("~", .ofText path)
    opening := .error "there is no library for RAW files" }

/-- Puts a file that is named into a tree, if it can be read. -/
def loadFile (env : Environment) (files : Tree Content) (name : String) : IO (Tree Content) := do
  match env.userPath name with
  | .error _ => return files
  | .ok path =>
    try
      let data ← IO.FS.readBinFile path.text
      let loaded := do
        let files ← files.makeDirectory env.directory path.parent
        files.write env.directory path (.data data)
      return loaded.toOption.getD files
    catch _ => return files

/-- Writes a file of a tree. A journal only has to be there. -/
def saveFile (place : Place) (content : Content) : IO Unit := do
  let path : Path := ⟨1, place⟩
  IO.FS.createDirAll path.parent.text
  match content with
  | .journal =>
    let _ ← IO.FS.Handle.mk path.text .append
  | content => IO.FS.writeBinFile path.text content.bytes

/-- Runs a command line between the disk and the terminal. -/
def runCommandLine (line : CommandLine) : IO UInt32 := do
  let env ← surroundings
  let files ← line.config.toList.foldlM (loadFile env) ⟨[]⟩
  let (ending, desk) := line.run env files
  for (place, content) in desk.files.files do
    if (files.entry? place).isNone then saveFile place content
  for text in desk.printed do
    IO.println text
  match ending.report? with
  | some report => IO.eprintln report
  | none => pure ()
  return ending.code.toUInt32

end Darkroom

open Darkroom in
/-- The program. -/
def main (words : List String) : IO UInt32 := do
  match CommandLine.parse words with
  | .ok line => runCommandLine line
  | .error .help =>
    IO.println usageText
    return Refusal.help.code.toUInt32
  | .error .misuse =>
    IO.eprintln usageText
    return Refusal.misuse.code.toUInt32
