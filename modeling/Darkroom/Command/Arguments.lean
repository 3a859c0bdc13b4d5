import Darkroom.Command.Words

/-!
# Commands

The commands and what they can be told. A command line names a command; the words after the name
are its own. Every command can be told a configuration and to show debugging messages; all but one
take a file. An option that is told twice counts as told last, and switches only turn things on.

The words are used in order, and the first that asks for help or is misused ends the program. What
is left over at the end, or missing, is misuse as well.

## Main definitions

* `Command`: A command with what it has been told.
* `CommandLine`: A command with what every command can be told.
* `CommandLine.parse`: Reads a command line.
-/

namespace Darkroom

/-- A command with what it has been told. -/
inductive Command where
  | info (input : String) (json : Bool)
  | render (input output : String) (saturation vibrance : Option Double) (halfSize : Bool)
    (outputDepth : Option Int)
  | extract (input output : String) (subtractBlack withRgb json : Bool)
  | thumbnail (input output : String)
  | version (json : Bool)

/-- A command with what every command can be told. -/
structure CommandLine where
  config : Option String
  debug : Bool
  command : Command

/-- A value that an option has been told. -/
inductive ToldValue where
  | nothing
  | text (s : String)
  | real (x : Double)
  | whole (n : Int)

/-- What has been told so far: the plain word, the options, and whether words are left over. -/
structure Told where
  input : Option String
  options : List (String × ToldValue)
  leftOver : Bool

namespace Told

/-- The last text that an option has been told. -/
def text? (t : Told) (name : String) : Option String :=
  match t.options.lookup name with
  | some (.text s) => some s
  | _ => none

def real? (t : Told) (name : String) : Option Double :=
  match t.options.lookup name with
  | some (.real x) => some x
  | _ => none

def whole? (t : Told) (name : String) : Option Int :=
  match t.options.lookup name with
  | some (.whole n) => some n
  | _ => none

/-- Whether a switch has been told. -/
def has (t : Told) (name : String) : Bool := (t.options.lookup name).isSome

end Told

/-- The names of the commands. -/
inductive CommandName where
  | info
  | render
  | extract
  | thumbnail
  | version
  deriving DecidableEq, Repr

namespace CommandName

/-- The command of a name. -/
def ofText? : String → Option CommandName
  | "info" => some info
  | "render" => some render
  | "extract" => some extract
  | "thumbnail" => some thumbnail
  | "version" => some version
  | _ => none

/-- Whether a command takes a file. -/
def takesInput : CommandName → Bool
  | version => false
  | _ => true

/-- The options of a command. -/
def options (name : CommandName) : List OptionName :=
  [helpOption, ⟨"--config", .text⟩, ⟨"--debug", .switch⟩] ++
    match name with
    | info => [⟨"--json", .switch⟩]
    | render => [⟨"--out", .text⟩, ⟨"--saturation", .real⟩, ⟨"--vibrance", .real⟩,
        ⟨"--half-size", .switch⟩, ⟨"--output-bps", .depth⟩]
    | extract => [⟨"--out", .text⟩, ⟨"--subtract-black", .switch⟩, ⟨"--with-rgb", .switch⟩,
        ⟨"--json", .switch⟩]
    | thumbnail => [⟨"--out", .text⟩]
    | version => [⟨"--json", .switch⟩]

/-- The command of a name with what it has been told, unless something is missing. -/
def command? (name : CommandName) (t : Told) : Option Command := do
  match name with
  | info => return .info (← t.input) (t.has "--json")
  | render =>
    let input ← t.input
    let output ← t.text? "--out"
    return .render input output (t.real? "--saturation") (t.real? "--vibrance")
      (t.has "--half-size") (t.whole? "--output-bps")
  | extract =>
    let input ← t.input
    let output ← t.text? "--out"
    return .extract input output (t.has "--subtract-black") (t.has "--with-rgb") (t.has "--json")
  | thumbnail => return .thumbnail (← t.input) (← t.text? "--out")
  | version => return .version (t.has "--json")

end CommandName

/-- A text as the value of an option. -/
def toldValue (kind : OptionKind) (text : String) : Except Refusal ToldValue :=
  match kind with
  | .text => .ok (.text text)
  | .real =>
    match readReal? text.toList with
    | some x => .ok (.real x)
    | none => .error .misuse
  | .depth =>
    match readWhole 10 text text.toList with
    | .ok n => if n = 8 ∨ n = 16 then .ok (.whole n) else .error .misuse
    | .error _ => .error .misuse
  | _ => .error .misuse

/-- Takes a plain word, as the file of a command that takes one and has none yet. -/
def Told.take (t : Told) (takesInput : Bool) (text : String) : Told :=
  if takesInput && t.input.isNone then { t with input := some text }
  else { t with leftOver := true }

/-- Uses the words of a command in order. Two hyphens may stand right before or after the file. -/
def useWords (takesInput : Bool) (t : Told) : List Word → Except Refusal Told
  | [] => .ok t
  | .unknown :: rest => useWords takesInput { t with leftOver := true } rest
  | .separator :: .plain text :: rest => useWords takesInput (t.take takesInput text) rest
  | .separator :: rest => useWords takesInput { t with leftOver := true } rest
  | .plain text :: .separator :: rest =>
    let told := t.take takesInput text
    useWords takesInput told rest
  | .plain text :: rest => useWords takesInput (t.take takesInput text) rest
  | .chosen option value :: rest =>
    let tell (value : ToldValue) : Told := { t with options := (option.name, value) :: t.options }
    match option.kind, value, rest with
    | .help, value, _ => .error (helpRefusal value)
    | .switch, none, rest => useWords takesInput (tell .nothing) rest
    | .switch, some _, _ => .error .misuse
    | kind, some text, rest => do useWords takesInput (tell (← toldValue kind text)) rest
    | kind, none, .plain text :: rest => do
      useWords takesInput (tell (← toldValue kind text)) rest
    | _, none, _ => .error .misuse

namespace CommandLine

/-- Reads the words after the name of a command. -/
def ofWords (name : CommandName) (words : List String) : Except Refusal CommandLine := do
  let told ← useWords name.takesInput ⟨none, [], false⟩ (← classify name.options words)
  match name.command? told with
  | some command =>
    if told.leftOver then .error .misuse
    else return ⟨told.text? "--config", told.has "--debug", command⟩
  | none => .error .misuse

/-- Reads a command line. Words before the name of the command are left over. -/
def parse : List String → Except Refusal CommandLine
  | [] => .error .misuse
  | "--" :: _ => .error .misuse
  | word :: rest =>
    match wordOf [helpOption] word with
    | .error refusal => .error refusal
    | .ok (.chosen _ value) => .error (helpRefusal value)
    | .ok (.plain text) =>
      match CommandName.ofText? text with
      | some name => ofWords name rest
      | none => .error .misuse
    | .ok _ => do
      -- The rest may still ask for help.
      let _ ← parse rest
      .error .misuse

end CommandLine

end Darkroom
