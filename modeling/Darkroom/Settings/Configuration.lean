import Darkroom.Files.Path
import Darkroom.Settings.Decode

/-!
# Configurations

What a user may fix once for all commands: how files are developed, how colours are adjusted, what
is extracted, and where the journal goes. A configuration is a document with a section for each of
these, and everything in it has a standard value.

Unknown names are refused before any value is looked at, first at the top, then in the sections for
adjusting and extracting; the section for developing comes last.

## Main definitions

* `Configuration`: A configuration.
* `Configuration.ofValue`: The configuration that a document describes.
* `Configuration.ofBytes`: The configuration that a file holds.
-/

namespace Darkroom

/-- How colours are adjusted, on the scale of users. -/
structure AdjustSettings where
  saturation : Double
  vibrance : Double
  rowsPerChunk : Option Int

/-- What is extracted. -/
structure ExtractSettings where
  subtractBlack : Bool
  includeRgb : Bool

/-- A configuration. -/
structure Configuration where
  decode : DecodeSettings Declared
  adjust : AdjustSettings
  extract : ExtractSettings
  logLevel : String
  logFile : Option Path

namespace Configuration

/-- The configuration where nothing else is said. -/
def standard : Configuration :=
  ⟨.standard, ⟨0, 0, none⟩, ⟨false, false⟩, "INFO", none⟩

/-- A section, where nothing and everything empty stand for an empty one. -/
def sectionValue (entries : Section) (key : String) : Value :=
  let value := Section.get entries key .null
  if value.isTrue then value else .table []

/-- A file that is named in a document. A relative path starts beside the document. -/
def namedFile (base : Path) : Value → Except Failure (Option Path)
  | .null => .ok none
  | .text name =>
    let path := Path.ofText name
    if name.isEmpty then .ok none
    else if path.isAbsolute then .ok (some path)
    else some <$> Path.resolve base path
  | _ => .error .wrongType

/-- The section on adjusting. -/
def adjustSettings (value : Value) : Except Failure AdjustSettings := do
  let entries ← sectionEntries value
  return ⟨← Section.real entries "saturation" 0, ← Section.real entries "vibrance" 0,
    ← Section.option entries Value.toWhole "rows_per_chunk"⟩

/-- The section on extracting. -/
def extractSettings (value : Value) : Except Failure ExtractSettings := do
  let entries ← sectionEntries value
  return ⟨Section.flag entries "subtract_black" false, Section.flag entries "include_rgb" false⟩

/-- The configuration that a document in the directory `base` describes. -/
def ofValue (base : Path) (document : Value) : Except Failure Configuration := do
  let document := if document.isTrue then document else .table []
  checkKeys "top-level" ["decode", "adjust", "extract", "log_level", "log_file"] document
  let entries ← sectionEntries document
  let adjust := sectionValue entries "adjust"
  let extract := sectionValue entries "extract"
  checkKeys "adjust" ["saturation", "vibrance", "rows_per_chunk"] adjust
  checkKeys "extract" ["subtract_black", "include_rgb"] extract
  let adjust ← adjustSettings adjust
  let extract ← extractSettings extract
  let decode ← DecodeSettings.parse (sectionValue entries "decode")
  let logLevel ← Section.text entries "log_level" "INFO"
  let logFile ← namedFile base (Section.get entries "log_file" .null)
  return ⟨decode, adjust, extract, logLevel, logFile⟩

/-- The configuration that a file in the directory `base` holds, with a reader of documents. -/
def ofBytes (read : ByteArray → Except Failure Value) (base : Path) (data : ByteArray) :
    Except Failure Configuration := do
  ofValue base (← read data)

end Configuration

end Darkroom
