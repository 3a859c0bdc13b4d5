/-!
# Days and moments

Days of the Gregorian calendar and moments within them, as they stand in settings files and in
records. A moment may carry its distance from universal time.

## Main definitions

* `Day`, `Moment`: A day, and a time of day with an optional distance from universal time.
* `Day.isValid`, `Moment.isValid`: Whether the calendar has it.
* `Moment.same`: Whether two moments are one.
* `Day.text`, `Moment.text`: The year, month and day with hyphens, then the time with colons.
-/

namespace Darkroom

/-- `n` in decimal, padded with zeros to `width` digits. -/
def padded (width n : Nat) : String :=
  let digits := Nat.toDigits 10 n
  String.ofList (List.replicate (width - digits.length) '0' ++ digits)

/-- A day of the calendar. -/
structure Day where
  year : Nat
  month : Nat
  day : Nat
  deriving DecidableEq, Repr

namespace Day

/-- Whether a year has a 29th of February. -/
def isLeap (year : Nat) : Bool := year % 4 = 0 && (year % 100 ≠ 0 || year % 400 = 0)

/-- The number of days of a month. -/
def monthLength (year month : Nat) : Nat :=
  if month = 2 then if isLeap year then 29 else 28
  else if month = 4 || month = 6 || month = 9 || month = 11 then 30
  else 31

/-- Whether the calendar has a day. -/
def isValid (d : Day) : Bool :=
  1 ≤ d.year && d.year ≤ 9999 && 1 ≤ d.month && d.month ≤ 12 && 1 ≤ d.day &&
    d.day ≤ monthLength d.year d.month

/-- The number of days up to a day, from the first year on. -/
def count (d : Day) : Nat :=
  let years := d.year - 1
  let inMonths := (List.range (d.month - 1)).foldl (fun n k => n + monthLength d.year (k + 1)) 0
  365 * years + years / 4 - years / 100 + years / 400 + inMonths + d.day

/-- A day as `2024-01-31`. -/
def text (d : Day) : String := padded 4 d.year ++ "-" ++ padded 2 d.month ++ "-" ++ padded 2 d.day

end Day

/-- A time of a day. The distance from universal time is counted in minutes. -/
structure Moment where
  day : Day
  hour : Nat
  minute : Nat
  second : Nat
  micro : Nat
  offset : Option Int
  deriving DecidableEq, Repr

namespace Moment

/-- Whether a day has a time. -/
def isValid (m : Moment) : Bool :=
  m.day.isValid && m.hour < 24 && m.minute < 60 && m.second < 60 && m.micro < 1000000

/-- The millionths of a second up to a moment, if it is `offset` minutes before universal time. -/
def instant (offset : Int) (m : Moment) : Int :=
  let minutes : Int := 1440 * m.day.count + 60 * m.hour + m.minute - offset
  1000000 * (60 * minutes + m.second) + m.micro

/-- Whether two moments are one: at one instant, if both say how far they are from universal time,
and written alike, if neither does. -/
def same (a b : Moment) : Bool :=
  match a.offset, b.offset with
  | some x, some y => a.instant x = b.instant y
  | none, none => a = b
  | _, _ => false

/-- A distance from universal time as `+05:30`. -/
def offsetText (minutes : Int) : String :=
  (if minutes < 0 then "-" else "+") ++ padded 2 (minutes.natAbs / 60) ++ ":" ++
    padded 2 (minutes.natAbs % 60)

/-- A moment as its day, a separator, and the time of day; a fraction of a second has six places
and is left out when it is zero. -/
def text (separator : String) (m : Moment) : String :=
  m.day.text ++ separator ++ padded 2 m.hour ++ ":" ++ padded 2 m.minute ++ ":" ++
    padded 2 m.second ++ (if m.micro = 0 then "" else "." ++ padded 6 m.micro) ++
    (m.offset.map offsetText).getD ""

end Moment

end Darkroom
