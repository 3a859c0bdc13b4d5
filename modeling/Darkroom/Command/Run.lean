import Darkroom.Camera.Notation
import Darkroom.Command.Arguments
import Darkroom.Journal
import Darkroom.Raw.File
import Darkroom.Settings.Loading

/-!
# Running commands

What the commands do. Each loads the configuration and opens the journal; then it opens a RAW file,
asks it for what it needs, closes it, and only then writes. So a command that fails before it writes
leaves no file but the journal, and a file that was opened is closed whatever happens.

A flag on the command line takes the place of the configuration's value, and a switch adds to it.

A failure ends a command with code one and is reported in a line of its own.

## Main definitions

* `Desk`: What a command has done so far.
* `withFile`: Opens a RAW file, asks it for something, and closes it.
* `Command.run`: What a command does.
* `CommandLine.run`: What a command line does, and how it ends.
-/

namespace Darkroom

/-- The name and the version of this program. -/
def programName : String := "rawprep"

def programVersion : String := "0.3.0"

/-- What a command has done so far: the files, the openings of RAW files, the last of them, and the
lines that were printed. -/
structure Desk where
  files : Tree Content
  openings : List Opening
  file : Option RawFile
  printed : List String

/-- A step of a command. What was done before a failure stays. -/
abbrev Work := ExceptT Failure (StateM Desk)

namespace Work

/-- Prints a line. -/
def print (line : String) : Work Unit :=
  modify fun desk => { desk with printed := desk.printed ++ [line] }

/-- Changes files. -/
def file {α : Type} (action : Filing α) : Work α := do
  let desk ← get
  let (result, files) := action.run desk.files
  set { desk with files }
  result

end Work

/-- Opens a RAW file, asks it for something, and closes it, even if the request fails. -/
def withFile {α : Type} (env : Environment) (settings : DecodeSettings Given) (source : Source)
    (request : Request α) : Work α := do
  if env.libraries.raw.isNone then throw .noRawLibrary
  let _ ← RawFile.openingLabel env source
  modify fun desk => { desk with openings := desk.openings ++ [RawFile.opening settings source] }
  let file ← RawFile.ofSource env settings source
  let (result, file) := request.run file
  modify fun desk => { desk with file := some file.close }
  -- Only now may a failed request end the command.
  result

/-- Loads the configuration and opens the journal. -/
def setUp (env : Environment) (line : CommandLine) : Work Configuration := do
  let config ← Configuration.load env (← get).files line.config
  let _ ← Work.file (Journal.start env config.logLevel config.logFile line.debug)
  return config

/-- The path of the file that a user names. The library has to be there before it is looked at. -/
def inputPath (env : Environment) (input : String) : Except Failure Path :=
  if env.libraries.raw.isNone then .error .noRawLibrary else env.userPath input

/-- An exposure time that may be unknown. -/
def optionalShutter (x : Option Double) : Except Failure (Option String) :=
  match x with
  | some x => shutterText (.real x) (.whole shutterBound)
  | none => .ok none

/-- An aperture that may be unknown. -/
def optionalAperture (x : Option Double) : Except Failure (Option String) :=
  match x with
  | some x => apertureText (.real x)
  | none => .ok none

/-- A number that is written when it is not zero. -/
def nonZero (x : Option Double) : Option Double := x.filter fun x => !x.isZero

/-- Texts that are there and not empty, joined by spaces, or another text. -/
def joinedOr (default : String) (texts : List (Option String)) : String :=
  let joined := " ".intercalate (texts.reduceOption.filter (· ≠ ""))
  if joined.isEmpty then default else joined

/-- Prints a value over several lines. -/
def printJson (value : Value) : Work Unit := do
  Work.print (← Json.write ⟨true, false⟩ value)

/-- Prints what is known about a file. -/
def printMetadata (m : RawMetadata) : Work Unit := do
  let path := (m.source.map Path.text).getD "None"
  let (a, b, c, d) := m.whiteBalance
  Work.print s!"Input RAW: {path}"
  Work.print ("Camera: " ++ joinedOr "unknown" [m.exif.make, m.exif.model])
  Work.print ("Raw size: " ++ (← dimensionsText m.rawWidth m.rawHeight))
  Work.print ("Image size: " ++ (← dimensionsText m.width m.height) ++
    s!" (flip={← Value.wholeText m.flip})")
  Work.print ("CFA: " ++ joinedOr "none" [m.tileLabels] ++
    s!" ({m.colorDescription}, {← Value.wholeText m.colorCount} colors)")
  Work.print (s!"Black level: {← Value.wholeText m.blackLevel}" ++
    s!"  White level: {← Value.wholeText m.whiteLevel}")
  Work.print ("Camera WB: " ++ ", ".intercalate ([a, b, c, d].map (Binary.fixedText 4)))
  let shutter ← optionalShutter m.exif.shutter
  let aperture ← optionalAperture m.exif.aperture
  let exposure := [
    (nonZero m.exif.iso).map fun x => s!"ISO {x.briefText}", shutter, aperture,
    (nonZero m.exif.focalLength).map fun x => s!"{x.briefText}mm"]
  Work.print ("Exposure: " ++ joinedOr "unknown" exposure)

namespace Command

/-- Shows what is known about a file. -/
def runInfo (env : Environment) (config : Configuration) (input : String) (json : Bool) :
    Work Unit := do
  let path ← inputPath env input
  let files := (← get).files
  let (known, summary) ← withFile env config.decode.toGiven (.path path) do
    let known ← RawFile.metadata env files
    let summary ← RawFile.processingInfo env files
    return (known, summary)
  if json then
    let shutter ← optionalShutter known.exif.shutter
    let entries := known.entries ++ [("shutter", .optionalText shutter)]
    printJson (.named [("metadata", .named entries), ("processing", summary)])
  else printMetadata known

/-- The settings of a command that develops a picture. -/
def renderSettings (config : Configuration) (halfSize : Bool) (outputDepth : Option Int) :
    DecodeSettings Declared :=
  { config.decode with
    halfSize := (config.decode.halfSize || halfSize : Bool)
    outputBps := (outputDepth.getD config.decode.outputBps : Int) }

/-- Develops a picture and adjusts its colours. -/
def runRender (env : Environment) (config : Configuration) (input output : String)
    (saturation vibrance : Option Double) (halfSize : Bool) (outputDepth : Option Int) :
    Work Unit := do
  let settings := renderSettings config halfSize outputDepth
  settings.toGiven.check
  let adjustment ← Adjustment.ofUserScale
    (.real (saturation.getD config.adjust.saturation))
    (.real (vibrance.getD config.adjust.vibrance))
  let target ← env.userPath output
  let path ← inputPath env input
  let picture ← withFile env settings.toGiven (.path path)
    (RawFile.render env none (some adjustment) (config.adjust.rowsPerChunk.map .whole))
  Work.file (Filing.storePicture env target picture)
  Work.print target.text

/-- The record of an extraction. -/
def extractionRecord (env : Environment) (source target : Path) (subtractBlack : Bool)
    (inputs : ModelInputs) : Except Failure Record := do
  return {
    sourceName := some source.name
    tensorName := target.name
    width := inputs.tensor.width
    height := inputs.tensor.height
    channelOrder := planeNames
    subtractBlack
    includesRgb := inputs.rgb.isSome
    metadata := ← inputs.metadata.toValue
    toolVersion := programVersion
    createdAt := env.clock.text "T" }

/-- Extracts the planes of a mosaic. -/
def runExtract (env : Environment) (config : Configuration) (input output : String)
    (subtractBlack withRgb json : Bool) : Work Unit := do
  let subtractBlack := subtractBlack || config.extract.subtractBlack
  let includeRgb := withRgb || config.extract.includeRgb
  let source ← env.userPath input
  let target ← env.userPath output
  let files := (← get).files
  let inputs ← withFile env config.decode.toGiven (.path source)
    (RawFile.modelInputs env files subtractBlack includeRgb)
  Work.file (Filing.storeArchive env target (.of inputs.tensor inputs.rgb))
  let record ← extractionRecord env source target subtractBlack inputs
  let recordPath ← target.withSuffix ".json"
  Work.file (Filing.storeRecord env recordPath record)
  if json then
    printJson (.named (record.entries ++
      [("tensor_path", .text target.text), ("record_path", .text recordPath.text)]))
  else
    Work.print (s!"Tensor: {target.text} ({← dimensionsText record.width record.height}" ++
      s!" x {record.channelOrder.length})")
    Work.print s!"Record: {recordPath.text}"

/-- Writes the picture inside a file. Tells whether there is one. -/
def runThumbnail (env : Environment) (config : Configuration) (input output : String) :
    Work Bool := do
  let target ← env.userPath output
  let path ← inputPath env input
  match ← withFile env config.decode.toGiven (.path path) (RawFile.thumbnail env) with
  | none => return false
  | some (.jpeg _ data) =>
    Work.file (Filing.store env target (.data data))
    Work.print target.text
    return true
  | some (.bitmap _ _ samples) =>
    Work.file (Filing.storePicture env target (← PixelBuffer.ofSamples samples))
    Work.print target.text
    return true

/-- The versions of this program and of the RAW library. -/
def versions (env : Environment) : Except Failure (List (String × Value)) :=
  match env.libraries.raw with
  | some library => .ok [(programName, .text programVersion), ("libraw", .text library)]
  | none => .error .noRawLibrary

/-- Shows the versions. -/
def runVersion (env : Environment) (json : Bool) : Work Unit := do
  let versions ← versions env
  if json then printJson (.named versions)
  else
    let library := env.libraries.raw.getD ""
    Work.print s!"{programName} {programVersion} (LibRaw {library})"

/-- What a command does. Tells whether it found what it was to write. -/
def run (env : Environment) (config : Configuration) : Command → Work Bool
  | info input json => do runInfo env config input json; return true
  | render input output saturation vibrance halfSize outputDepth => do
    runRender env config input output saturation vibrance halfSize outputDepth
    return true
  | extract input output subtractBlack withRgb json => do
    runExtract env config input output subtractBlack withRgb json
    return true
  | thumbnail input output => runThumbnail env config input output
  | version json => do runVersion env json; return true

end Command

/-- How a command ends: well, without a picture to write, or with a failure. -/
inductive Ending where
  | done
  | noThumbnail
  | failed (failure : Failure)

namespace Ending

/-- The code that a program ends with. -/
def code : Ending → Nat
  | done => 0
  | _ => 1

/-- What is reported about an ending, if anything. A failure without wording is reported by its
sort. -/
def report? : Ending → Option String
  | done => none
  | noThumbnail => some "error: no usable thumbnail"
  | failed failure => some ("error: " ++ failure.message?.getD failure.kind.wording)

end Ending

namespace CommandLine

/-- What a command line does to files, and how it ends. -/
def run (env : Environment) (files : Tree Content) (line : CommandLine) : Ending × Desk :=
  let work : Work Bool := do
    let config ← setUp env line
    line.command.run env config
  let (result, desk) := work.run ⟨files, [], none, []⟩
  (match result with
    | .ok true => .done
    | .ok false => .noThumbnail
    | .error failure => .failed failure, desk)

end CommandLine

end Darkroom
