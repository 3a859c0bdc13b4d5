import Darkroom.Numeric.Decimal
import Darkroom.Numeric.Power
import Darkroom.Text.Quoted
import Darkroom.Value.Basic

/-!
# Values as text

A value as messages show it, with quotes around texts and brackets around lists, and a value as
text, where a text stands for itself. A whole number of more than 4300 digits is not written out,
and neither is a list or a table inside itself: three points stand for its parts.

## Main definitions

* `Value.shown`: A value inside a message.
* `Value.asText`: A value as a text.
-/

namespace Darkroom

/-- The most digits that a whole number may have in a text. -/
def digitLimit : Nat := 4300

namespace Value

/-- A day inside a message. -/
def shownDay (d : Day) : String := s!"datetime.date({d.year}, {d.month}, {d.day})"

/-- A length of time inside a message. One before the present is counted forward from days
earlier. -/
def shownDistance (minutes : Int) : String :=
  let days := minutes.fdiv 1440
  let seconds := minutes.fmod 1440 * 60
  let parts := (if days = 0 then [] else [s!"days={days}"]) ++
    (if seconds = 0 then [] else [s!"seconds={seconds}"])
  "datetime.timedelta(" ++ ", ".intercalate parts ++ ")"

/-- A distance from universal time inside a message. -/
def shownOffset (minutes : Int) : String :=
  if minutes = 0 then "datetime.timezone.utc"
  else "datetime.timezone(" ++ shownDistance minutes ++ ")"

/-- A moment inside a message; seconds and their fraction are left out when they are zero. -/
def shownMoment (m : Moment) : String :=
  let fields := [m.day.year, m.day.month, m.day.day, m.hour, m.minute] ++
    (if m.micro ≠ 0 then [m.second, m.micro] else if m.second ≠ 0 then [m.second] else [])
  let zone := match m.offset with
    | none => []
    | some minutes => ["tzinfo=" ++ shownOffset minutes]
  "datetime.datetime(" ++ ", ".intercalate (fields.map toString ++ zone) ++ ")"

/-- A whole number in decimal. -/
def wholeText (n : Int) : Except Failure String :=
  if n.natAbs < tenTo digitLimit then .ok (toString n) else .error .tooLongToShow

/-- The brackets of a value inside itself. -/
def brackets : Value → String
  | items _ => "[...]"
  | tuple _ => "(...)"
  | table _ => "\x7b...\x7d"
  | _ => "..."

mutual

/-- A value inside the values of some marks, each with its brackets. -/
def shownWithin (around : List (Nat × String)) : Value → Except Failure String
  | null => .ok "None"
  | flag b => .ok (if b then "True" else "False")
  | whole n => wholeText n
  | real x => .ok x.exactText
  | text s => .ok (quoted s)
  | bytes data => .ok (quotedBytes data)
  | day d => .ok (shownDay d)
  | moment m => .ok (shownMoment m)
  | items values => return "[" ++ ", ".intercalate (← shownAll around values) ++ "]"
  | tuple [value] => return "(" ++ (← shownWithin around value) ++ ",)"
  | tuple values => return "(" ++ ", ".intercalate (← shownAll around values) ++ ")"
  | table entries =>
    return "\x7b" ++ ", ".intercalate (← shownEntries around entries) ++ "\x7d"
  | collection [] => .ok "set()"
  | collection values =>
    return "\x7b" ++ ", ".intercalate (← shownAll around values) ++ "\x7d"
  | tied mark value =>
    match around.lookup mark with
    | some shown => .ok shown
    | none => shownWithin ((mark, value.brackets) :: around) value
  | again mark => .ok ((around.lookup mark).getD "...")

def shownAll (around : List (Nat × String)) : List Value → Except Failure (List String)
  | [] => .ok []
  | value :: rest => return (← shownWithin around value) :: (← shownAll around rest)

def shownEntries (around : List (Nat × String)) :
    List (Value × Value) → Except Failure (List String)
  | [] => .ok []
  | (key, value) :: rest => do
    let entry := (← shownWithin around key) ++ ": " ++ (← shownWithin around value)
    return entry :: (← shownEntries around rest)

end

/-- A value inside a message. -/
def shown (value : Value) : Except Failure String := shownWithin [] value

/-- A value as a text: a text is itself, days and moments are written plainly, and everything else
is as messages show it. -/
def asText : Value → Except Failure String
  | text s => .ok s
  | day d => .ok d.text
  | moment m => .ok (m.text " ")
  | value => value.shown

end Value

end Darkroom
