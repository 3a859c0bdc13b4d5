import Darkroom.Proofs.Command.Extraction

/-!
# Named Archives

Where the name leads that an extraction gives for its planes.

The record is kept beside the planes and names them, and so does what is printed. Both repeat the
path that the user has given. The archive itself goes to that path only when it ends in `.npz`, just
so and in small letters; otherwise the ending is added, and the record still says the name without
it. So the name is right for the paths that the command asks for, and for all others it is not: what
stands there, if anything, is not the archive.

## Theorems

* `Extraction.withName_tensorName`: The path that the record's name stands for.
* `Extraction.path_eq_target_iff`: When the archive is kept there.
* `CommandLine.extraction_named`: What a command that extracts has named, and where the archive is.
-/

namespace Darkroom

namespace Command

variable {record : Record} {target recordPath : Path} {desk after : Desk} {a : Unit}

/-- The table that is printed has the path of the planes, as the user has given it. -/
theorem printed_of_reportExtraction
    (h : EndsWell (reportExtraction record target recordPath true) desk a after) :
    ∃ line, Json.write ⟨true, false⟩ (.named (record.entries ++
        [("tensor_path", .text target.text), ("record_path", .text recordPath.text)])) = .ok line ∧
      after.printed = desk.printed ++ [line] := by
  unfold reportExtraction printJson at h
  rw [if_pos rfl, endsWell_liftExcept_bind] at h
  rcases h with ⟨line, hline, h⟩
  unfold Work.print at h
  rw [endsWell_modify] at h
  exact ⟨line, hline, by rw [h]⟩

end Command

namespace Extraction

variable {env : Environment} {config : Configuration} {input output : String}
  {subtractBlack includeRgb : Bool} {files filed : Tree Content}
  (e : Extraction env config input output subtractBlack includeRgb files filed)

theorem tensorName_eq : e.record.tensorName = e.target.name := by
  have hrecord := e.record_eq
  unfold Command.extractionRecord at hrecord
  rcases ok_bind_iff.mp hrecord with ⟨_, -, hpure⟩
  rw [← Except.ok.inj hpure]

/-- In the record's directory the name stands for the path that the user has given. -/
theorem withName_tensorName : e.recordPath.withName e.record.tensorName = e.target := by
  rw [e.tensorName_eq]
  exact (Path.withName_of_withSuffix e.recordPath_eq).2

/-- The archive is kept at that path just when the name ends as names of archives do. -/
theorem path_eq_target_iff : TensorArchive.path e.target = e.target ↔
    TensorArchive.endsIn TensorArchive.ending.toList e.record.tensorName.toList = true := by
  rw [e.tensorName_eq]
  exact TensorArchive.path_eq_self_iff (slashes_of_userPath e.target_eq)
    (Path.withName_of_withSuffix e.recordPath_eq).1

/-- Developed planes are there when they were asked for. -/
theorem isSome_rgb : e.inputs.rgb.isSome = includeRgb := by
  rcases RawFile.endsWell_modelInputs.mp e.inputs_eq with ⟨_, _, _, -, -, -, -, hrgb⟩
  cases includeRgb with
  | false =>
    rw [if_neg Bool.false_ne_true] at hrgb
    rw [← (endsWell_pure.mp hrgb).1]
    rfl
  | true =>
    rw [if_pos rfl, map_eq_pure_bind] at hrgb
    rcases endsWell_bind.mp hrgb with ⟨_, _, -, hpure⟩
    rw [← (endsWell_pure.mp hpure).1]
    rfl

end Extraction

namespace CommandLine

variable {env : Environment} {files : Tree Content} {line : CommandLine} {input output : String}
  {subtractBlack withRgb json : Bool}

/-- What a command line that extracts and ends with code zero has named, and where the archive is.
    The name in the record stands for the path that was printed, and the archive of the planes that
    were extracted is found there when the name ends in `.npz`. In any case it is found at a path
    with this ending, which is the named one only then. -/
theorem extraction_named
    (hcommand : line.command = .extract input output subtractBlack withRgb json)
    (hcode : (line.run env files).1.code = 0) :
    ∃ config desk, EndsWell (setUp env line) ⟨files, [], none, []⟩ config desk ∧
      ∃ e : Extraction env config input output (subtractBlack || config.extract.subtractBlack)
          (withRgb || config.extract.includeRgb) desk.files (line.run env files).2.files,
        (line.run env files).2.files.read env.directory e.recordPath = .ok (.text e.text) ∧
        e.recordPath.withName e.record.tensorName = e.target ∧
        (json = true → ∃ shown, Json.write ⟨true, false⟩ (.named (e.record.entries ++
            [("tensor_path", .text e.target.text), ("record_path", .text e.recordPath.text)])) =
              .ok shown ∧
          (line.run env files).2.printed = desk.printed ++ [shown]) ∧
        e.inputs.rgb.isSome = (withRgb || config.extract.includeRgb) ∧
        (line.run env files).2.files.archiveAt? env.directory (TensorArchive.path e.target) =
          some (.of e.inputs.tensor e.inputs.rgb) ∧
        (TensorArchive.path e.target = e.target ↔
          TensorArchive.endsIn TensorArchive.ending.toList e.record.tensorName.toList = true) := by
  rcases code_run_eq_zero.mp hcode with ⟨config, desk, hsetUp, hrun⟩
  rw [hcommand] at hrun
  unfold Command.run at hrun
  rcases endsWell_bind.mp hrun with ⟨_, _, hextract, hdone⟩
  rcases endsWell_pure.mp hdone with ⟨-, rfl⟩
  rcases Command.endsWell_runExtract.mp hextract with ⟨filed, e, hreport⟩
  have hfiles := Command.files_of_reportExtraction hreport
  simp only at hfiles
  subst hfiles
  refine ⟨config, desk, hsetUp, e, e.read_record, e.withName_tensorName, ?_, e.isSome_rgb,
    e.archiveAt, e.path_eq_target_iff⟩
  rintro rfl
  rcases Command.printed_of_reportExtraction hreport with ⟨shown, hshown, hprinted⟩
  exact ⟨shown, hshown, hprinted⟩

/-- Planes that go to a path with the ending are found where the record says. -/
theorem extraction_named_plainLine :
    (plainLine.run plainSurroundings ⟨[]⟩).1.code = 0 ∧
      ∃ (recordPath : Path) (record : Record) (archive : TensorArchive),
        recordPath.withName record.tensorName = ⟨1, ["b.npz"]⟩ ∧
        (plainLine.run plainSurroundings ⟨[]⟩).2.files.archiveAt? ⟨1, []⟩
          (recordPath.withName record.tensorName) = some archive := by
  rcases extraction_named rfl code_run_plainLine with ⟨_, _, -, e, -, hname, -, -, harchive, -⟩
  have htarget := Except.ok.inj (e.target_eq.symm.trans isPlainTarget_archive.target_eq)
  refine ⟨code_run_plainLine, e.recordPath, e.record, .of e.inputs.tensor e.inputs.rgb,
    hname.trans htarget, ?_⟩
  rw [hname]
  rw [htarget, isPlainTarget_archive.path_eq, ← htarget] at harchive
  exact harchive

theorem isPlainTarget_bare : IsPlainTarget "b" "b.npz" where
  target_eq := userPath_plain "b" (by decide) (by simp [Path.hasNul]) (by decide) (by decide)
  path_eq := by with_unfolding_all rfl
  names_eq := isPlainTarget_archive.names_eq
  checkName_eq := by decide
  ne_up := by decide
  ne_record := by decide
  recordPath_eq := by with_unfolding_all rfl

/-- Planes that go to a path without the ending are not found where the record says: there is
    nothing, and the archive is beside it. -/
theorem extraction_misnamed :
    (CommandLine.run plainSurroundings ⟨[]⟩
        ⟨none, false, .extract "/a.dng" "/b" true false false⟩).1.code = 0 ∧
      ∃ files, (CommandLine.run plainSurroundings ⟨[]⟩
          ⟨none, false, .extract "/a.dng" "/b" true false false⟩).2.files = files ∧
        ∃ (recordPath : Path) (record : Record) (text : String) (archive : TensorArchive),
          record.text = .ok text ∧ files.read ⟨1, []⟩ recordPath = .ok (.text text) ∧
          recordPath.withName record.tensorName = ⟨1, ["b"]⟩ ∧
          files.read ⟨1, []⟩ ⟨1, ["b"]⟩ = .error .missingFile ∧
          files.archiveAt? ⟨1, []⟩ ⟨1, ["b.npz"]⟩ = some archive := by
  rcases exists_run_plain isPlainTarget_bare with ⟨text, e, htarget, hcode, hfiles⟩
  have hnames : Tree.names ⟨1, []⟩ ⟨1, ["b"]⟩ = .ok ["b"] :=
    plainNames "b" (by decide) (by simp [Path.text, Path.hasNul]) (by decide)
  have harchive := e.archiveAt
  rw [htarget, isPlainTarget_bare.path_eq] at harchive
  refine ⟨hcode, _, hfiles, e.recordPath, e.record, e.text, _, e.text_eq, e.read_record,
    e.withName_tensorName.trans htarget, ?_, harchive⟩
  unfold Tree.read Tree.locate
  rw [hnames]
  rfl

end CommandLine

end Darkroom
