import Darkroom.Camera.Exif
import Darkroom.Files.Path

/-!
# Metadata of RAW files

All that is known about a RAW file before it is developed: what the camera says about the picture,
and what the library reports about the sensor.

## Main definitions

* `RawMetadata`: What is known about a RAW file.
* `RawMetadata.entries`: The same by name.
* `RawMetadata.summary`: The part that matters for processing.
-/

namespace Darkroom

/-- What is known about a RAW file. -/
structure RawMetadata where
  source : Option Path
  exif : Exif
  rawWidth : Int
  rawHeight : Int
  width : Int
  height : Int
  innerWidth : Int
  innerHeight : Int
  flip : Int
  colorCount : Int
  colorDescription : String
  tileLabels : Option String
  blackLevel : Int
  blackLevels : Option (Int × Int × Int × Int)
  whiteLevel : Int
  whiteBalance : Double × Double × Double × Double

namespace RawMetadata

/-- The black levels as a value, or nothing. -/
def blackLevelsValue : Option (Int × Int × Int × Int) → Value
  | some (a, b, c, d) => .tuple [.whole a, .whole b, .whole c, .whole d]
  | none => .null

/-- The white balance in order. -/
def balanceValues : Double × Double × Double × Double → List Value
  | (a, b, c, d) => [.real a, .real b, .real c, .real d]

/-- What is known about a RAW file, by name. -/
def entries (m : RawMetadata) : List (String × Value) := [
  ("source_path", .optionalText (m.source.map Path.text)),
  ("camera_make", .optionalText m.exif.make), ("camera_model", .optionalText m.exif.model),
  ("timestamp", .optionalText m.exif.timestamp),
  ("iso", .optionalReal m.exif.iso), ("shutter_s", .optionalReal m.exif.shutter),
  ("aperture_f", .optionalReal m.exif.aperture),
  ("focal_length_mm", .optionalReal m.exif.focalLength),
  ("raw_width", .whole m.rawWidth), ("raw_height", .whole m.rawHeight), ("width", .whole m.width),
  ("height", .whole m.height), ("iwidth", .whole m.innerWidth), ("iheight", .whole m.innerHeight),
  ("flip", .whole m.flip), ("num_colors", .whole m.colorCount),
  ("color_desc", .text m.colorDescription), ("cfa_pattern", .optionalText m.tileLabels),
  ("black_level", .whole m.blackLevel),
  ("black_level_per_channel", blackLevelsValue m.blackLevels),
  ("white_level", .whole m.whiteLevel), ("camera_wb", .tuple (balanceValues m.whiteBalance))]

/-- The part that matters for processing. -/
def summary (m : RawMetadata) : Value :=
  .named [
    ("camera_make", .optionalText m.exif.make), ("camera_model", .optionalText m.exif.model),
    ("raw_width", .whole m.rawWidth), ("raw_height", .whole m.rawHeight), ("width", .whole m.width),
    ("height", .whole m.height), ("iwidth", .whole m.innerWidth),
    ("iheight", .whole m.innerHeight), ("colors", .whole m.colorCount),
    ("cfa_pattern", .optionalText m.tileLabels),
    ("color", .named [("black", .whole m.blackLevel), ("maximum", .whole m.whiteLevel),
      ("cam_mul", .items (balanceValues m.whiteBalance))])]

end RawMetadata

end Darkroom
