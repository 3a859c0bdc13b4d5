import Darkroom.Files.Filing

/-!
# The journal

Messages go to the terminal and, if a file is named, to that file. How many there are is decided by
a level with a name; a name that stands for no level means the usual one. Two names stand for things
that are no levels at all, and are refused. Debugging shows everything, whatever the level.

The library for tags is chatty, so its messages have a level of their own.

## Main definitions

* `Journal`: Where messages go, and from which level on.
* `Journal.levelOf`: The level of a name.
* `Journal.start`: Opens the journal.
-/

namespace Darkroom

/-- Where messages go, and from which level on. -/
structure Journal where
  level : Int
  tagLevel : Int
  file : Option Path

namespace Journal

/-- The levels by name. -/
def levels : List (String × Int) := [
  ("CRITICAL", 50), ("FATAL", 50), ("ERROR", 40), ("WARNING", 30), ("WARN", 30), ("INFO", 20),
  ("DEBUG", 10), ("NOTSET", 0)]

/-- The level of debugging, of usual messages, and of warnings. -/
def debugLevel : Int := 10

def usualLevel : Int := 20

def warningLevel : Int := 30

/-- The name of the layout of messages, and the layout. -/
def layoutName : String := "BASIC_FORMAT"

def layout : String := "%(levelname)s:%(name)s:%(message)s"

/-- The name of the table of layouts. -/
def layoutsName : String := "_STYLES"

/-- The level of a name, in any letter case. -/
def levelOf (name : String) : Except Failure Int :=
  let name := upperCase name
  match levels.lookup name with
  | some level => .ok level
  | none =>
    if name = layoutName then .error (.unknownLevel (quoted layout))
    else if name = layoutsName then .error .wrongType
    else .ok usualLevel

/-- Makes the file of a journal, unless it is there, and all directories around it. -/
def makeFile (env : Environment) (path : Path) : Filing Unit := do
  Filing.makeDirectory env path.parent
  if ← (← get).holds env.directory path then
    let _ ← (← get).read env.directory path
  else Filing.write env path .journal

/-- Opens the journal. The file is made before the level is looked at. -/
def start (env : Environment) (level : String) (file : Option Path) (debug : Bool) :
    Filing Journal := do
  match file with
  | some path => makeFile env path
  | none => pure ()
  let level ← if debug then pure debugLevel else levelOf level
  return ⟨level, if debug then debugLevel else warningLevel, file⟩

end Journal

end Darkroom
