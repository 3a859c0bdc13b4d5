import Darkroom.Camera.Exif
import Darkroom.Json.Reader

/-!
# Reports about pictures

Where it is said how a picture was taken: in the tags of the file itself, or in the report of a
separate program that also knows files without such tags. The report is a list of tables, of which
the first counts. Without the program, or when it fails, there is nothing to say, and neither is
there without tags. But a report that is nested deeper than there is room for is a failure.

## Main definitions

* `Reporter`: What becomes of asking the program for a report.
* `Exif.ofReport`: What a report says.
* `Exif.ofReading`: What the tags say that a file has been found to have.
-/

namespace Darkroom

/-- What becomes of asking for a report: there is no program, it does not start, or it ends with a
code and an output. -/
inductive Reporter where
  | missing
  | failing
  | answers (output : String) (code : Int)

namespace Exif

/-- What the first table of a report says. -/
def ofRow : Value → Except Failure Exif
  | .table entries =>
    let value (name : String) : TagValue := .ofValue ((Value.lookup name entries).getD .null)
    ofValues (value "Make") (value "Model") (value "DateTimeOriginal") (value "ISO")
      (value "ExposureTime") (value "FNumber") (value "FocalLength")
  | _ => .error .wrongAttribute

/-- What a report says. An empty one says nothing; one that is not a list is a failure. -/
def ofRows (rows : Value) : Except Failure Exif :=
  if !rows.isTrue then .ok empty
  else
    match rows with
    | .items (row :: _) => ofRow row
    | .text _ => .error .wrongAttribute
    | .table _ => .error (.missingKey "0")
    | _ => .error .wrongType

/-- What a program reports, if there is room for it. -/
def ofReport (room : Nat) : Reporter → Except Failure Exif
  | .missing | .failing => .ok empty
  | .answers output code =>
    if code ≠ 0 then .ok empty
    else
      match Json.read room output with
      | .ok rows => ofRows rows
      | .error .malformed => .ok empty
      | .error (.tooDeep part) => .error (.nestedReport part)

/-- What the tags say that a file has been found to have. Without tags it says nothing. -/
def ofReading : Option Tags → Except Failure Exif
  | some tags => ofTags tags
  | none => .ok empty

end Exif

end Darkroom
