import Darkroom.Command.Run
import Darkroom.Proofs.Files.Steps

/-!
# Steps of Commands

What a command has done at its desk after a step that ended well.

## Theorems

* `Work.endsWell_file`: An action on files changes nothing else.
* `endsWell_withFile`: A request to a file that is opened and closed changes no files.
-/

namespace Darkroom

/-- An action on files, failed or not, leaves its files at the desk. -/
theorem Work.run_file {α : Type} (action : Filing α) (desk : Desk) :
    (Work.file action).run desk =
      ((action.run desk.files).1, { desk with files := (action.run desk.files).2 }) := by
  have hget : (get : Work Desk).run desk = (.ok desk, desk) := rfl
  unfold Work.file
  rw [run_bind, hget]
  dsimp only
  rcases action.run desk.files with ⟨_ | _, _⟩
  · rfl
  · rfl

/-- An action on files changes nothing but the files. -/
theorem Work.endsWell_file {α : Type} {action : Filing α} {desk after : Desk} {a : α} :
    EndsWell (Work.file action) desk a after ↔
      ∃ files, EndsWell action desk.files a files ∧ after = { desk with files } := by
  unfold Work.file
  rw [endsWell_get_bind]
  unfold EndsWell
  rcases action.run desk.files with ⟨result, files⟩
  show EndsWell (set { desk with files } >>= fun _ => (liftM result : Work α)) desk a after ↔ _
  rw [endsWell_set_bind, endsWell_liftExcept]
  refine ⟨?_, ?_⟩
  · rintro ⟨rfl, rfl⟩
    exact ⟨files, rfl, rfl⟩
  · rintro ⟨_, h, rfl⟩
    cases h
    exact ⟨rfl, rfl⟩

/-- A request whose result is only looked at after the file is closed. -/
theorem endsWell_request {α : Type} {request : Request α} {file : RawFile} {desk after : Desk}
    {a : α} :
    EndsWell (match request.run file with
      | (result, file) => do
        modify fun desk : Desk => { desk with file := some file.close }
        (liftM result : Work α)) desk a after ↔
      ∃ asked, EndsWell request file a asked ∧ after = { desk with file := some asked.close } := by
  unfold EndsWell
  rcases request.run file with ⟨result, asked⟩
  show EndsWell (modify (fun desk : Desk => { desk with file := some asked.close }) >>=
    fun _ => (liftM result : Work α)) desk a after ↔ _
  rw [endsWell_modify_bind, endsWell_liftExcept]
  refine ⟨?_, ?_⟩
  · rintro ⟨rfl, rfl⟩
    exact ⟨asked, rfl, rfl⟩
  · rintro ⟨_, h, rfl⟩
    cases h
    exact ⟨rfl, rfl⟩

/-- A request to a file that is opened for it and closed after it changes no files. -/
theorem endsWell_withFile {α : Type} {env : Environment} {settings : DecodeSettings Given}
    {source : Source} {request : Request α} {desk after : Desk} {a : α} :
    EndsWell (withFile env settings source request) desk a after ↔
      ∃ file asked, RawFile.ofSource env settings source = .ok file ∧
        EndsWell request file a asked ∧
        after = { desk with
          openings := desk.openings ++ [RawFile.opening settings source]
          file := some asked.close } := by
  unfold withFile RawFile.ofSource
  by_cases hraw : env.libraries.raw.isNone = true
  · rw [if_pos hraw, if_pos hraw, endsWell_bind]
    constructor
    · rintro ⟨_, _, h, -⟩
      cases h
    · rintro ⟨_, _, h, -⟩
      cases h
  · rw [if_neg hraw, if_neg hraw]
    simp only [endsWell_liftExcept_bind, endsWell_modify_bind]
    cases hlabel : RawFile.openingLabel env source with
    | error e =>
      constructor
      · rintro ⟨_, h, -⟩
        cases h
      · rintro ⟨_, _, h, -⟩
        cases h
    | ok label =>
      constructor
      · rintro ⟨_, -, file, hfile, h⟩
        rcases endsWell_request.mp h with ⟨asked, hrequest, hafter⟩
        exact ⟨file, asked, hfile, hrequest, hafter⟩
      · rintro ⟨file, asked, hfile, hrequest, hafter⟩
        exact ⟨label, rfl, file, hfile, endsWell_request.mpr ⟨asked, hrequest, hafter⟩⟩

end Darkroom
