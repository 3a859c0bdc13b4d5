import Darkroom.Value.Cast

/-!
# Words of a command line

How the words of a command line are taken as options and as plain words. A word that begins with a
hyphen is an option if there is one of that name, alone or before an equals sign, or if it is the
beginning of exactly one name. A number below zero and a word with a space are plain words; after
two hyphens everything is.

All words are looked at before any is used. So a beginning that fits several names ends the program
even if an earlier word asks for help.

## Main definitions

* `OptionName`: An option, by the kind of value that it takes.
* `Word`: What a word is taken as.
* `Refusal`: How the words may end the program.
* `classify`: What every word is taken as.
-/

namespace Darkroom

/-- How the words may end the program: with help that was asked for, or because of misuse. -/
inductive Refusal where
  | help
  | misuse
  deriving DecidableEq, Repr

/-- The code that a program ends with when its words are refused. -/
def Refusal.code : Refusal → Nat
  | help => 0
  | misuse => 2

/-- The value that an option takes. -/
inductive OptionKind where
  | help
  | switch
  | text
  | real
  | depth
  deriving DecidableEq, Repr

/-- An option: its name with two hyphens, and what it takes. -/
structure OptionName where
  name : String
  kind : OptionKind
  deriving DecidableEq, Repr

/-- The option that every command has. -/
def helpOption : OptionName := ⟨"--help", .help⟩

/-- What a word is taken as. -/
inductive Word where
  | plain (text : String)
  | separator
  | chosen (option : OptionName) (value : Option String)
  | unknown
  deriving DecidableEq, Repr

/-- The words that an equals sign joins. -/
def splitAtEquals (text : String) : Option (String × String) :=
  let cs := text.toList
  if cs.contains '=' then
    some (String.ofList (cs.takeWhile (· ≠ '=')), String.ofList ((cs.dropWhile (· ≠ '=')).drop 1))
  else none

/-- A digit of any script. -/
def isAnyDigit (c : Char) : Bool := (digitValue? c).isSome

/-- Whether a word is a number below zero: digits, or a point before the last of them. -/
def isNegativeNumber (text : String) : Bool :=
  match text.toList with
  | '-' :: rest =>
    let tail := rest.dropWhile isAnyDigit
    match tail with
    | [] => !rest.isEmpty
    | '.' :: places => !places.isEmpty && places.all isAnyDigit
    | _ => false
  | _ => false

/-- The options that begin with a word, which may bring a value after an equals sign. -/
def abbreviated (options : List OptionName) (word : String) :
    List (OptionName × Option String) :=
  let (start, value) := match splitAtEquals word with
    | some (start, value) => (start, some value)
    | none => (word, none)
  (options.filter fun o => start.toList.isPrefixOf o.name.toList).map (·, value)

/-- Asking for help by one letter, with what follows the letter. The letter may be repeated, and
other letters do not matter any more; but a value is refused. -/
def shortHelp : List Char → Word
  | 'h' :: rest => shortHelp rest
  | '=' :: value => .chosen helpOption (some (String.ofList value))
  | '-' :: rest => .chosen helpOption (some (String.ofList ('-' :: rest)))
  | _ => .chosen helpOption none

/-- What a word with one hyphen is taken as. -/
def shortWord (word : String) : Word :=
  match word.toList with
  | '-' :: 'h' :: rest => shortHelp rest
  | _ =>
    if word = "-" || isNegativeNumber word || word.contains ' ' then .plain word else .unknown

/-- What a word with two hyphens is taken as. -/
def longWord (options : List OptionName) (word : String) : Except Refusal Word :=
  let exact (name : String) : Option OptionName := options.find? (·.name = name)
  match exact word, (splitAtEquals word).bind fun (name, value) => (exact name).map (·, value) with
  | some option, _ => .ok (.chosen option none)
  | none, some (option, value) => .ok (.chosen option (some value))
  | none, none =>
    match abbreviated options word with
    | [] => .ok (if word.contains ' ' then .plain word else .unknown)
    | [(option, value)] => .ok (.chosen option value)
    | _ => .error .misuse

/-- What a word before two hyphens is taken as. -/
def wordOf (options : List OptionName) (word : String) : Except Refusal Word :=
  match word.toList with
  | '-' :: '-' :: _ => longWord options word
  | '-' :: _ => .ok (shortWord word)
  | _ => .ok (.plain word)

/-- What every word is taken as. -/
def classify (options : List OptionName) : List String → Except Refusal (List Word)
  | [] => .ok []
  | word :: rest =>
    if word = "--" then .ok (.separator :: rest.map .plain)
    else return (← wordOf options word) :: (← classify options rest)

/-- How asking for help ends the program; it takes no value. -/
def helpRefusal (value : Option String) : Refusal := if value.isNone then .help else .misuse

end Darkroom
