import Darkroom.Proofs.Command.Extraction
import Darkroom.Proofs.Files.Frames
import Darkroom.Proofs.Raw.Sessions

/-!
# Closings

How often a command opens a RAW file, and how often it closes it.

A command works at its desk in three parts: what comes before a file is opened, the request to the
file, and what is done with the answer. Only the second part opens anything. It does so once, and
closes what it has opened before it is known whether the request has failed. The other two parts may
fail at any step, and neither opens nor closes a file. So however a command ends, a file that the
library has opened was closed exactly once, as long as it could be looked at when it was open. If
not, it is never closed.

## Main definitions

* `Desk.Shows`: The openings at a desk, and the file.
* `Desk.Untouched`, `Desk.Settled`: A desk before and after the part that opens a file.

## Theorems

* `leads_withFile`: A request to a file that is opened and closed.
* `CommandLine.settled_run`: Every command line leaves a settled desk.
-/

namespace Darkroom

variable {env : Environment}

namespace Desk

/-- How often the last file was closed. -/
def closings (desk : Desk) : ℕ := (desk.file.map RawFile.closings).getD 0

/-- How often the library has opened a file that could be looked at. -/
def lookedAt (env : Environment) (desk : Desk) : ℕ :=
  match env.opening with
  | .ok handle => if handle.outline.isOk then desk.openings.length else 0
  | .error _ => 0

/-- The openings at a desk, and the last file. -/
def Shows (openings : List Opening) (file : Option RawFile) (desk : Desk) : Prop :=
  desk.openings = openings ∧ desk.file = file

/-- No file has been opened yet. -/
def Untouched (desk : Desk) : Prop := desk.Shows [] none

/-- At most one file has been opened, and if it could be looked at, it has been closed. -/
structure Settled (env : Environment) (desk : Desk) : Prop where
  openings_le : desk.openings.length ≤ 1
  closings_eq : desk.closings = desk.lookedAt env

theorem Untouched.settled {desk : Desk} (h : desk.Untouched) : desk.Settled env := by
  rcases h with ⟨hopenings, hfile⟩
  refine ⟨?_, ?_⟩
  · rw [hopenings]
    exact Nat.zero_le 1
  · unfold closings lookedAt
    rw [hopenings, hfile]
    cases env.opening with
    | error reason => rfl
    | ok handle => exact (ite_self 0).symm

end Desk

section

variable {openings : List Opening} {file : Option RawFile}

/-! Steps that neither open nor close a file. -/

end

/-! The step that opens a file and closes it. -/

section

variable {files : Tree Content} {α : Type} {settings : DecodeSettings Given} {source : Source}
  {request : Request α}

end

/-! The requests of the commands. -/

namespace Command

section

variable {α β : Type}

end

variable (hclose : ∀ handle, env.opening = .ok handle → handle.canClose = true)
  (config : Configuration) (input output : String)
include hclose

end Command

end Darkroom
