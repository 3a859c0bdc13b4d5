import Darkroom.Json.Printer

/-!
# Extraction records

A record stands beside a tensor and says where it comes from: the file, the size and order of the
planes, how they were normalised, what is known about the picture, and when and by what they were
made. It is kept as a table with sorted names, spread over lines.

## Main definitions

* `Record`: A record.
* `Record.entries`: A record as a table.
* `Record.text`: A record as it is kept.
-/

namespace Darkroom

/-- A record of an extraction. -/
structure Record where
  sourceName : Option String
  tensorName : String
  width : Int
  height : Int
  channelOrder : List String
  subtractBlack : Bool
  includesRgb : Bool
  metadata : Value
  toolVersion : String
  createdAt : String

namespace Record

/-- A record as a table. -/
def entries (r : Record) : List (String × Value) := [
  ("source_filename", .optionalText r.sourceName), ("tensor_filename", .text r.tensorName),
  ("width", .whole r.width), ("height", .whole r.height),
  ("channel_order", .tuple (r.channelOrder.map .text)), ("subtract_black", .flag r.subtractBlack),
  ("includes_rgb", .flag r.includesRgb), ("metadata", r.metadata),
  ("tool_version", .text r.toolVersion), ("created_at_utc", .text r.createdAt)]

/-- A table as records are kept: sorted by name, spread over lines, with a line end after it. -/
def textOfEntries (entries : List (String × Value)) : Except Failure String :=
  return (← Json.write ⟨true, true⟩ (.named entries)) ++ "\n"

/-- A record as it is kept. -/
def text (r : Record) : Except Failure String := textOfEntries r.entries

end Record

end Darkroom
