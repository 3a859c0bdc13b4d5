import Darkroom.Camera.Device
import Darkroom.Value.Cast

/-!
# Metadata for models

What a model for development is told about a picture: how it was exposed, the white balance, the
device, the sizes and levels. It is picked by name from what is known about the file; what is not
known is nothing.

## Main definitions

* `ModelMetadata`: What a model is told.
* `ModelMetadata.ofEntries`: What a model is told about a file.
* `ModelMetadata.toValue`: The same as a table of plain values.
-/

namespace Darkroom

/-- What a model is told about a picture. -/
structure ModelMetadata where
  iso : Value
  exposure : Value
  aperture : Value
  focalLength : Value
  whiteBalance : List Value
  make : Value
  model : Value
  device : Device
  rawWidth : Value
  rawHeight : Value
  width : Value
  height : Value
  blackLevel : Value
  maximum : Value
  tileLabels : Value

namespace ModelMetadata

/-- What a model is told about a file, by what is known about it. -/
def ofEntries (entries : List (String × Value)) : Except Failure ModelMetadata := do
  let get (name : String) : Value := (entries.lookup name).getD .null
  let whiteBalance ← (get "camera_wb").toElements
  let device ← Device.ofValue (get "camera_model")
  return {
    iso := get "iso", exposure := get "shutter_s", aperture := get "aperture_f"
    focalLength := get "focal_length_mm", whiteBalance
    make := get "camera_make", model := get "camera_model", device
    rawWidth := get "raw_width", rawHeight := get "raw_height", width := get "width"
    height := get "height", blackLevel := get "black_level", maximum := get "white_level"
    tileLabels := get "cfa_pattern" }

/-- What a model is told, by name. -/
def entries (m : ModelMetadata) : List (String × Value) := [
  ("iso", m.iso), ("exposure", m.exposure), ("aperture", m.aperture),
  ("focal_length", m.focalLength), ("wb_coeffs", .tuple m.whiteBalance), ("camera_make", m.make),
  ("camera_model", m.model), ("device_id", .whole m.device.number), ("raw_width", m.rawWidth),
  ("raw_height", m.rawHeight), ("width", m.width), ("height", m.height),
  ("black_level", m.blackLevel), ("maximum", m.maximum), ("cfa_pattern", m.tileLabels)]

/-- What a model is told, as a table in which the white balance is a list of real numbers. -/
def toValue (m : ModelMetadata) : Except Failure Value := do
  let balance ← m.whiteBalance.mapM Value.toReal
  return .named (m.entries.map fun (name, value) =>
    (name, if name = "wb_coeffs" then .items (balance.map .real) else value))

end ModelMetadata

end Darkroom
