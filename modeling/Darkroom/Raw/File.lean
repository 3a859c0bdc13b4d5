import Darkroom.Environment
import Darkroom.Mosaic.Channels
import Darkroom.Mosaic.Extract
import Darkroom.Picture.Size
import Darkroom.Raw.Metadata
import Darkroom.Raw.Model
import Darkroom.Settings.Decode
import Darkroom.Tone.Adjuster

/-!
# Open RAW files

A RAW file that is open can be asked for its metadata, its mosaic, its preview, and for pictures
developed from it. The settings are fixed when it is opened; a request may bring its own, and the
linear picture always does, without changing the file's.

A file is looked at as soon as the library has opened it. If that fails, opening fails, though the
library has the file open, and nobody is left who could close it.

Three things change while a file is open: what the camera says is read once, when it is first
needed and has been read without failure; every request to the library for a picture is noted; and
so is every time the file is closed. None of them changes an answer while the files around stay as
they are.

## Main definitions

* `Source`: Where a RAW file comes from.
* `RawFile`: An open RAW file.
* `RawFile.target`: What the library is asked to open.
* `RawFile.ofSource`: Opening a RAW file.
* `RawFile.metadata`, `RawFile.mosaic`, `RawFile.render`, …: The requests.
-/

namespace Darkroom

/-- Where a RAW file comes from: a path or bytes. -/
inductive Source where
  | path (p : Path)
  | bytes (data : ByteArray)

/-- An open RAW file. -/
structure RawFile where
  handle : Handle
  settings : DecodeSettings Given
  source : Option Source
  exif : Option Exif
  developments : List Options
  closings : Nat

/-- A request to an open file. A request that fails may still have changed what is noted. -/
abbrev Request := ExceptT Failure (StateM RawFile)

/-- A sensor plane with its mosaic and its levels. -/
structure RawMosaic where
  plane : Plane
  pattern : MosaicPattern
  calibration : Calibration

/-- The picture inside a file, with its size as far as it is known. -/
inductive Thumbnail where
  | jpeg (size : Option PictureSize) (data : ByteArray)
  | bitmap (width height : Nat) (samples : Samples)

/-- What a model for development takes in: a tensor, metadata, and the linear picture if wanted. -/
structure ModelInputs where
  tensor : Tensor
  metadata : ModelMetadata
  rgb : Option Samples

/-- How the library was asked to open a file: from a path or from bytes, and with which options. -/
structure Opening where
  fromPath : Bool
  options : Options

/-- The names of a file in messages: its path, or what stands for a file without one. -/
def Source.description : Option Source → String
  | some (.path p) => p.text
  | _ => "<memory>"

namespace RawFile

/-- An open file that nothing has been asked of. -/
def ofHandle (handle : Handle) (settings : DecodeSettings Given) (source : Option Source) :
    RawFile :=
  ⟨handle, settings, source, none, [], 0⟩

/-- How the library is asked to open a file. -/
def opening (settings : DecodeSettings Given) (source : Source) : Opening :=
  let fromPath := match source with
    | .path _ => true
    | .bytes _ => false
  let shot : Value := settings.shotSelect
  ⟨fromPath, if shot.isTrue then [("shot_select", .plain shot)] else []⟩

/-- What the library is asked to open: a path with its home directory in place, or bytes. -/
def target (env : Environment) : Source → Except Failure Source
  | .path p => return .path (← p.expandHome env.homes)
  | .bytes data => .ok (.bytes data)

/-- The name of what is opened in the message of a failure to open it. -/
def openingLabel (env : Environment) (source : Source) : Except Failure String := do
  match ← target env source with
  | .path p => return p.text
  | .bytes data => return s!"<{data.size} bytes>"

/-- Opens a RAW file, and looks at it for the journal. -/
def ofSource (env : Environment) (settings : DecodeSettings Given) (source : Source) :
    Except Failure RawFile := do
  if env.libraries.raw.isNone then .error .noRawLibrary
  else
    let label ← openingLabel env source
    match env.opening with
    | .ok handle =>
      let _ ← handle.outline
      return ofHandle handle settings (some source)
    | .error reason => .error (.openFailed label reason)

/-- The path that a file was opened from. -/
def sourcePath (f : RawFile) : Option Path :=
  match f.source with
  | some (.path p) => some p
  | _ => none

/-- The name of a file in messages. -/
def description (f : RawFile) : String := Source.description f.source

/-- Closes a file. -/
def close (f : RawFile) : RawFile :=
  if f.handle.canClose then { f with closings := f.closings + 1 } else f

/-- What is said about a file before anything has been read. -/
def readExif (env : Environment) (files : Tree Content) (f : RawFile) : Except Failure Exif :=
  match f.source with
  | some (.bytes data) => env.exifOfBytes data
  | some (.path p) => do
    if ← files.holds env.directory p then env.exifOfFile files p else return .empty
  | none => .ok .empty

/-- What is said about a file, read once. -/
def exifData (env : Environment) (files : Tree Content) : Request Exif := do
  let f ← get
  match f.exif with
  | some exif => return exif
  | none =>
    let exif ← f.readExif env files
    set { f with exif := some exif }
    return exif

/-- What is known about a file, given what the camera says. -/
def metadataWith (f : RawFile) (exif : Exif) : Except Failure RawMetadata := do
  let h := f.handle
  let sizes ← h.sizes
  let pattern ← h.pattern?
  let black ← h.blackLevels?
  let rawWidth ← sizes.rawWidth.toWhole
  let rawHeight ← sizes.rawHeight.toWhole
  let width ← sizes.width.toWhole
  let height ← sizes.height.toWhole
  let innerWidth ← sizes.innerWidth.toWhole
  let innerHeight ← sizes.innerHeight.toWhole
  let flip ← sizes.flip.toWhole
  let colorCount ← (← h.colorCount).toWhole
  let colorDescription ← h.labels
  let whiteLevel ← h.maximum
  let whiteBalance ← h.whiteBalance
  return {
    source := f.sourcePath, exif, rawWidth, rawHeight, width, height, innerWidth, innerHeight
    flip, colorCount, colorDescription
    tileLabels := pattern.map MosaicPattern.tileLabels
    blackLevel := Handle.leastBlack black, blackLevels := black, whiteLevel, whiteBalance }

/-- What is known about a file. The library is asked for the sizes before the camera is. -/
def metadata (env : Environment) (files : Tree Content) : Request RawMetadata := do
  let _ ← (← get).handle.sizes
  let exif ← exifData env files
  (← get).metadataWith exif

/-- The part of the metadata that matters for processing. -/
def processingInfo (env : Environment) (files : Tree Content) : Request Value := do
  return (← metadata env files).summary

/-- The mosaic of a file. -/
def mosaicOf (f : RawFile) : Except Failure RawMosaic := do
  match ← f.handle.pattern? with
  | none => .error (.noPattern f.description)
  | some pattern =>
    let black ← f.handle.blackLevels?
    let plane ← Plane.ofSamples f.handle.visible
    let maximum ← f.handle.maximum
    return ⟨plane, pattern, ⟨.whole maximum, .whole (Handle.leastBlack black)⟩⟩

/-- The mosaic of a file. -/
def mosaic : Request RawMosaic := do (← get).mosaicOf

/-- The mosaic of a file by channel. -/
def mosaicChannels : Request Samples := do
  let m ← mosaic
  m.plane.splitChannels m.pattern

/-- Has the library develop a picture with settings, and notes the request. -/
def develop (env : Environment) (settings : DecodeSettings Given) : Request PixelBuffer := do
  if env.libraries.raw.isNone then throw .wrongAttribute
  let options ← settings.options
  modify fun f => { f with developments := f.developments ++ [options] }
  let f ← get
  match f.handle.development options with
  | .failure reason => throw (.processingFailed f.description reason)
  | .picture samples => PixelBuffer.ofSamples samples

/-- A developed picture with its colours adjusted. -/
def render (env : Environment) (settings : Option (DecodeSettings Given))
    (adjustment : Option Adjustment) (rows : Option Number) : Request PixelBuffer := do
  let picture ← develop env (settings.getD (← get).settings)
  match adjustment with
  | none => return picture
  | some a => if a.isIdentity then return picture else picture.adjust a rows

/-- Settings for a linear picture in full size: 16 bits, no curve, the plainest algorithm. -/
def linearSettings (settings : DecodeSettings Given) : DecodeSettings Given :=
  { settings with
    halfSize := Value.flag false
    useCameraWb := Value.flag true
    useAutoWb := Value.flag false
    outputColor := Value.text "sRGB"
    outputBps := Value.whole 16
    gamma := Value.tuple [.real 1, .real 1]
    demosaic := Value.text "LINEAR"
    noAutoBright := Value.flag true }

/-- The first three channels of a picture one after the other, as shares of the greatest sample of
16 bits. -/
def channelPlanes (b : PixelBuffer) : Samples where
  type := .single
  shape := [min 3 b.channels, b.height, b.width]
  cells := Array.ofFn fun n : Fin (min 3 b.channels * (b.height * b.width)) =>
    let site := n % (b.height * b.width)
    let channel := n / (b.height * b.width)
    b.type.toSingle (b.cells.getD (site * b.channels + channel) default) / 65535
  size_eq := by simp [volume]

/-- The linear picture of a file. -/
def linearPicture (env : Environment) : Request Samples := do
  let settings := linearSettings (← get).settings
  settings.check
  return channelPlanes (← develop env settings)

/-- The picture inside a file, if there is one that can be used. -/
def thumbnail (env : Environment) : Request (Option Thumbnail) := do
  if env.libraries.raw.isNone then throw .wrongAttribute
  match (← get).handle.preview with
  | .absent => return none
  | .failure reason => throw (.library reason)
  | .jpeg data =>
    let size ← if env.libraries.pictures.other then PictureSize.read data else pure none
    return some (.jpeg size data)
  | .bitmap samples =>
    match samples.shape with
    | height :: width :: _ => return some (.bitmap width height samples)
    | _ => throw .wrongIndex

/-- What a model for development takes in. -/
def modelInputs (env : Environment) (files : Tree Content) (subtractBlack includeRgb : Bool) :
    Request ModelInputs := do
  let m ← mosaic
  let tensor ← m.plane.extract m.pattern m.calibration subtractBlack
  let known ← metadata env files
  let told ← ModelMetadata.ofEntries known.entries
  let rgb ← if includeRgb then some <$> linearPicture env else pure none
  return ⟨tensor, told, rgb⟩

end RawFile

end Darkroom
