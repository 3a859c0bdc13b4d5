import Darkroom.Environment
import Darkroom.Settings.Configuration

/-!
# Loading configurations

The configuration in a file, or the standard one when no file is named. Without the library for
documents no file is even looked for.

## Main definitions

* `Configuration.load`: The configuration that a user names.
-/

namespace Darkroom

/-- The configuration that a user names. -/
def Configuration.load (env : Environment) (files : Tree Content) :
    Option String → Except Failure Configuration
  | none => .ok .standard
  | some name =>
    if !env.libraries.documents then .error .noYamlLibrary
    else do
      let path ← env.userPath name
      let content ← files.read env.directory path
      Configuration.ofBytes env.readers.document path.parent content.bytes

end Darkroom
