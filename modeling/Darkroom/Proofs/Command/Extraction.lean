import Darkroom.Proofs.Command.Steps
import Darkroom.Proofs.Files.LastNames
import Darkroom.Proofs.Files.TreeLaws
import Darkroom.Proofs.Json.Tables
import Darkroom.Proofs.Raw.Requests

/-!
# Extractions

What an extraction leaves when it ends well.

An extraction asks the file for planes and metadata, writes the planes into an archive, and writes a
record beside it. Both names come from one path. The archive's ends in `.npz` and the record's in
`.json`, so the record never takes the archive's place, and what is found at the end is the planes
that were asked for and the record that was made of them.

## Main definitions

* `Extraction`: The steps of an extraction with what each of them has made.
* `Command.reportExtraction`: What an extraction prints at its end.

## Theorems

* `CommandLine.code_run_eq_zero`: When a command line ends with code zero.
* `Command.endsWell_runExtract`: When an extraction ends well.
* `Extraction.read_record`, `Extraction.read_archive`: What is found after an extraction.
-/

namespace Darkroom

/-- How a command ends that has come to a result. -/
def Ending.ofResult : Except Failure Bool → Ending
  | .ok true => .done
  | .ok false => .noThumbnail
  | .error failure => .failed failure

theorem Ending.code_ofResult {result : Except Failure Bool} :
    (ofResult result).code = 0 ↔ result = .ok true := by
  rcases result with failure | found
  · exact iff_of_false Nat.one_ne_zero fun h => by cases h
  · cases found with
    | false => exact iff_of_false Nat.one_ne_zero fun h => by cases h
    | true => exact iff_of_true rfl rfl

namespace CommandLine

/-- All that a command line does, one step after the other. -/
def work (env : Environment) (line : CommandLine) : Work Bool := do
  let config ← setUp env line
  line.command.run env config

theorem run_eq (env : Environment) (files : Tree Content) (line : CommandLine) :
    line.run env files =
      (.ofResult ((line.work env).run ⟨files, [], none, []⟩).1,
        ((line.work env).run ⟨files, [], none, []⟩).2) := rfl

/-- A command line ends with code zero when the configuration is loaded and the command ends
    well. -/
theorem code_run_eq_zero {env : Environment} {files : Tree Content} {line : CommandLine} :
    (line.run env files).1.code = 0 ↔
      ∃ config desk, EndsWell (setUp env line) ⟨files, [], none, []⟩ config desk ∧
        EndsWell (line.command.run env config) desk true (line.run env files).2 := by
  rw [run_eq, Ending.code_ofResult, ← endsWell_bind]
  refine ⟨fun h => ?_, fun h => ?_⟩
  · exact Prod.ext h rfl
  · exact congrArg Prod.fst h

theorem run_of_endsWell {env : Environment} {files : Tree Content} {line : CommandLine}
    {config : Configuration} {desk after : Desk}
    (hsetUp : EndsWell (setUp env line) ⟨files, [], none, []⟩ config desk)
    (hcommand : EndsWell (line.command.run env config) desk true after) :
    line.run env files = (.done, after) := by
  have hwork : (line.work env).run ⟨files, [], none, []⟩ = (.ok true, after) :=
    endsWell_bind.mpr ⟨config, desk, hsetUp, hcommand⟩
  rw [run_eq, hwork]
  rfl

end CommandLine

/-- An extraction that has been filed: what each of its steps has made, from the files before it to
    the files after it. -/
structure Extraction (env : Environment) (config : Configuration) (input output : String)
    (subtractBlack includeRgb : Bool) (files filed : Tree Content) where
  source : Path
  target : Path
  recordPath : Path
  file : RawFile
  asked : RawFile
  inputs : ModelInputs
  made : Tree Content
  archived : Tree Content
  readied : Tree Content
  record : Record
  text : String
  source_eq : env.userPath input = .ok source
  target_eq : env.userPath output = .ok target
  file_eq : RawFile.ofSource env config.decode.toGiven (.path source) = .ok file
  inputs_eq : EndsWell (RawFile.modelInputs env files subtractBlack includeRgb) file inputs asked
  made_eq : files.makeDirectory env.directory target.parent = .ok made
  archived_eq : made.write env.directory (TensorArchive.path target)
    (.archive (.of inputs.tensor inputs.rgb)) = .ok archived
  record_eq : Command.extractionRecord env source target subtractBlack inputs = .ok record
  recordPath_eq : target.withSuffix ".json" = .ok recordPath
  readied_eq : archived.makeDirectory env.directory recordPath.parent = .ok readied
  text_eq : record.text = .ok text
  filed_eq : readied.write env.directory recordPath (.text text) = .ok filed

namespace Command

variable {env : Environment} {config : Configuration} {input output : String}
  {subtractBlack withRgb json : Bool} {desk after : Desk} {a : Unit}

/-- What an extraction prints at its end. -/
def reportExtraction (record : Record) (target recordPath : Path) (json : Bool) : Work Unit := do
  if json then
    printJson (.named (record.entries ++
      [("tensor_path", .text target.text), ("record_path", .text recordPath.text)]))
  else
    Work.print (s!"Tensor: {target.text} ({← dimensionsText record.width record.height}" ++
      s!" x {record.channelOrder.length})")
    Work.print s!"Record: {recordPath.text}"

theorem files_of_print {line : String} (h : EndsWell (Work.print line) desk a after) :
    after.files = desk.files := by
  unfold Work.print at h
  rw [endsWell_modify] at h
  rw [h]

theorem files_of_printJson {value : Value} (h : EndsWell (printJson value) desk a after) :
    after.files = desk.files := by
  unfold printJson at h
  rw [endsWell_liftExcept_bind] at h
  rcases h with ⟨line, -, h⟩
  exact files_of_print h

/-- Printing changes no files. -/
theorem files_of_reportExtraction {record : Record} {target recordPath : Path}
    (h : EndsWell (reportExtraction record target recordPath json) desk a after) :
    after.files = desk.files := by
  unfold reportExtraction at h
  cases json with
  | true => exact files_of_printJson h
  | false =>
    simp only [Bool.false_eq_true, if_false, endsWell_liftExcept, endsWell_bind] at h
    rcases h with ⟨_, _, ⟨-, rfl⟩, _, _, hfirst, hsecond⟩
    exact (files_of_print hsecond).trans (files_of_print hfirst)

/-- An extraction ends well when each of its steps does. After them it only prints. -/
theorem endsWell_runExtract :
    EndsWell (runExtract env config input output subtractBlack withRgb json) desk a after ↔
      ∃ (filed : Tree Content) (e : Extraction env config input output
        (subtractBlack || config.extract.subtractBlack) (withRgb || config.extract.includeRgb)
        desk.files filed),
        EndsWell (reportExtraction e.record e.target e.recordPath json)
          { desk with
            files := filed
            openings := desk.openings ++
              [RawFile.opening config.decode.toGiven (.path e.source)]
            file := some e.asked.close } a after := by
  unfold runExtract
  -- The first steps ask for no state; they are peeled before the ones that do.
  simp only [endsWell_liftExcept_bind, endsWell_get_bind]
  simp only [endsWell_bind, endsWell_withFile, Work.endsWell_file, Filing.endsWell_storeArchive,
    Filing.endsWell_storeRecord, endsWell_liftExcept]
  constructor
  · rintro ⟨source, hsource, target, htarget, inputs, _, ⟨file, asked, hfile, hinputs, rfl⟩,
      _, _, ⟨archived, ⟨made, hmade, harchived⟩, rfl⟩, record, _, ⟨hrecord, rfl⟩,
      recordPath, _, ⟨hrecordPath, rfl⟩, _, _,
      ⟨filed, ⟨readied, text, hreadied, htext, hfiled⟩, rfl⟩, hreport⟩
    exact ⟨filed, {
      source, target, recordPath, file, asked, inputs, made, archived, readied, record, text
      source_eq := hsource
      target_eq := htarget
      file_eq := hfile
      inputs_eq := hinputs
      made_eq := hmade
      archived_eq := harchived
      record_eq := hrecord
      recordPath_eq := hrecordPath
      readied_eq := hreadied
      text_eq := htext
      filed_eq := hfiled }, hreport⟩
  · rintro ⟨filed, e, hreport⟩
    exact ⟨e.source, e.source_eq, e.target, e.target_eq, e.inputs, _,
      ⟨e.file, e.asked, e.file_eq, e.inputs_eq, rfl⟩,
      ⟨⟩, _, ⟨e.archived, ⟨e.made, e.made_eq, e.archived_eq⟩, rfl⟩, e.record, _, ⟨e.record_eq, rfl⟩,
      e.recordPath, _, ⟨e.recordPath_eq, rfl⟩,
      ⟨⟩, _, ⟨filed, ⟨e.readied, e.text, e.readied_eq, e.text_eq, e.filed_eq⟩, rfl⟩, hreport⟩

/-- The files after an extraction that ended well. -/
theorem exists_extraction_of_endsWell
    (h : EndsWell (runExtract env config input output subtractBlack withRgb json) desk a after) :
    Nonempty (Extraction env config input output (subtractBlack || config.extract.subtractBlack)
      (withRgb || config.extract.includeRgb) desk.files after.files) := by
  rcases endsWell_runExtract.mp h with ⟨filed, e, hreport⟩
  rw [files_of_reportExtraction hreport]
  exact ⟨e⟩

end Command

/-- A path that a user names starts at the top. -/
theorem slashes_of_userPath {env : Environment} {text : String} {p : Path}
    (h : env.userPath text = .ok p) : p.slashes ≠ 0 := by
  unfold Environment.userPath at h
  rcases ok_bind_iff.mp h with ⟨q, -, hresolve⟩
  rw [Path.slashes_of_resolve hresolve]
  exact Nat.one_ne_zero

namespace Extraction

variable {env : Environment} {config : Configuration} {input output : String}
  {subtractBlack includeRgb : Bool} {files filed : Tree Content}
  (e : Extraction env config input output subtractBlack includeRgb files filed)

theorem read_record : filed.read env.directory e.recordPath = .ok (.text e.text) :=
  Tree.read_of_write e.filed_eq

/-- The last character of a name is that of its ending. -/
theorem getLast?_of_suffix {ending name : List Char} {c : Char} (h : ending <:+ name)
    (hc : ending.getLast? = some c) : name.getLast? = some c := by
  rcases h with ⟨before, rfl⟩
  rw [List.getLast?_append, hc]
  rfl

theorem ne_up_of_getLast? {name : String} {c : Char} (h : name.toList.getLast? = some c)
    (hc : c ≠ '.') : name ≠ ".." := by
  rintro rfl
  exact hc (Option.some_inj.mp h).symm

/-- The archive and the record never stand at one place: the last characters of their names
    differ. -/
theorem places_ne {t u : Tree Content} {p q : Place}
    (hp : t.locate env.directory (TensorArchive.path e.target) = .ok p)
    (hq : u.locate env.directory e.recordPath = .ok q) : p ≠ q := by
  have habsolute := slashes_of_userPath e.target_eq
  rcases TensorArchive.exists_last_of_path habsolute with
    ⟨harchive, front, name, hparts, hname⟩
  rcases Path.exists_last_of_withSuffix e.recordPath_eq with
    ⟨hslashes, front', name', hparts', hname'⟩
  have hz := getLast?_of_suffix (c := 'z') hname rfl
  have hn := getLast?_of_suffix (c := 'n') hname' rfl
  -- At one place the two last names would be one.
  rintro rfl
  have h := Tree.getLast?_of_locate harchive hparts (ne_up_of_getLast? hz (by decide)) hp
  rw [Tree.getLast?_of_locate (hslashes ▸ habsolute) hparts' (ne_up_of_getLast? hn (by decide)) hq,
    Option.some_inj] at h
  subst h
  rw [hz] at hn
  exact absurd hn (by decide)

/-- The record does not take the archive's place. -/
theorem read_archive : filed.read env.directory (TensorArchive.path e.target) =
    .ok (.archive (.of e.inputs.tensor e.inputs.rgb)) := by
  -- The archive is there before the record is written, and that goes to another place.
  have hreadied := Tree.read_of_extends (Tree.extends_of_makeDirectory e.readied_eq)
    (Tree.read_of_write e.archived_eq)
  rcases Tree.read_eq_ok.mp hreadied with ⟨p, hp, -⟩
  rcases Tree.write_eq_ok.mp e.filed_eq with ⟨q, hq, -⟩
  exact Tree.read_of_write_other hreadied e.filed_eq hp hq (e.places_ne hp hq)

theorem archiveAt : filed.archiveAt? env.directory (TensorArchive.path e.target) =
    some (.of e.inputs.tensor e.inputs.rgb) := by
  unfold Tree.archiveAt?
  rw [e.read_archive]
  rfl

end Extraction

/-! An extraction that ends well, from a sensor of three rows and two columns into an empty file
    system. -/

/-- A handle that knows its levels, but not what the camera is. -/
def plainHandle : Handle where
  visible := Plane.oddPlane.toSamples
  pattern := .items [.items [.whole 0, .whole 1], .items [.whole 3, .whole 2]]
  colorDescription := .text "RGBG"
  colorCount := Value.whole 3
  whiteLevel := .whole 1023
  blackLevels := .items [.whole 8, .whole 9, .whole 10]
  cameraWhiteBalance := .null
  sizes := Sizes.mk (.whole 3) (.whole 2) (.whole 3) (.whole 2) (.whole 3) (.whole 2) (.whole 0)
  development := .failure ""
  preview := .absent
  canClose := true

def plainSurroundings : Environment where
  libraries := ⟨some "0.21.2", false, false, ⟨false, false⟩⟩
  reporter := .missing
  clock := ⟨⟨2024, 1, 31⟩, 1, 2, 3, 0, none⟩
  directory := ⟨1, []⟩
  homes := []
  opening := .ok plainHandle

def plainLine : CommandLine := ⟨none, false, .extract "/a.dng" "/b.npz" true false false⟩

/-- The file as it is opened. -/
def plainFile : RawFile :=
  .ofHandle plainHandle Configuration.standard.decode.toGiven (some (.path ⟨1, ["a.dng"]⟩))

/-- What a model takes in, with the least of the black levels. -/
def plainInputs : ModelInputs where
  tensor := Plane.oddPlane.tensorIn (ReadingRange.between (Binary.ofInt 8) (Binary.ofInt 1023))
  metadata := {
    iso := .null
    exposure := .null
    aperture := .null
    focalLength := .null
    whiteBalance := [.real 1, .real 1, .real 1, .real 1]
    make := .null
    model := .null
    device := .other
    rawWidth := .whole 2
    rawHeight := .whole 3
    width := .whole 2
    height := .whole 3
    blackLevel := .whole 8
    maximum := .whole 1023
    tileLabels := .text "RGGB" }
  rgb := none

/-- The record that is made of it. -/
def plainRecord : Record where
  sourceName := "a.dng"
  tensorName := "b.npz"
  width := 1
  height := 1
  channelOrder := planeNames
  subtractBlack := true
  includesRgb := false
  metadata := .named (plainInputs.metadata.entries.map fun (name, value) =>
    (name, if name = "wb_coeffs" then .items [.real 1, .real 1, .real 1, .real 1] else value))
  toolVersion := programVersion
  createdAt := "2024-01-31T01:02:03"

/-- The record can be written, whatever name it gives to the planes. -/
theorem exists_plainRecord_text (name : String) :
    ∃ text, { plainRecord with tensorName := name }.text = .ok text := by
  have hwhole {n : ℤ} (fuel depth : ℕ) (h : n.natAbs < 10000) :
      ∃ text, Json.writeWithin ⟨true, true⟩ (fuel + 1) depth (.whole n) = .ok text :=
    ⟨_, Value.wholeText_of_small h⟩
  have hmetadata : ∃ text, Json.writeWithin ⟨true, true⟩ 3 1 plainRecord.metadata = .ok text := by
    refine Json.exists_writeWithin_named ?_
    simp only [plainInputs, ModelMetadata.entries, List.map_cons, List.map_nil,
      List.forall_mem_cons]
    exact ⟨⟨_, rfl⟩, ⟨_, rfl⟩, ⟨_, rfl⟩, ⟨_, rfl⟩, ⟨_, rfl⟩, ⟨_, rfl⟩, ⟨_, rfl⟩,
      hwhole _ _ (by decide), hwhole _ _ (by decide), hwhole _ _ (by decide),
      hwhole _ _ (by decide), hwhole _ _ (by decide), hwhole _ _ (by decide),
      hwhole _ _ (by decide), ⟨_, rfl⟩, List.forall_mem_nil _⟩
  have htable : ∃ text, Json.writeWithin ⟨true, true⟩ 4 0
      (.named { plainRecord with tensorName := name }.entries) = .ok text := by
    refine Json.exists_writeWithin_named ?_
    unfold Record.entries
    simp only [List.forall_mem_cons]
    exact ⟨⟨_, rfl⟩, ⟨_, rfl⟩, hwhole _ _ (by decide), hwhole _ _ (by decide), ⟨_, rfl⟩, ⟨_, rfl⟩,
      ⟨_, rfl⟩, hmetadata, ⟨_, rfl⟩, ⟨_, rfl⟩, List.forall_mem_nil _⟩
  rcases htable with ⟨text, htext⟩
  exact ⟨text ++ "\n", ok_bind_iff.mpr ⟨text, htext, rfl⟩⟩

theorem plainNames (name : String) (hhalf : Path.hasHalf (Path.text ⟨1, [name]⟩) = false)
    (hnul : Path.hasNul (Path.text ⟨1, [name]⟩) = false)
    (hlong : (Path.text ⟨1, [name]⟩).utf8ByteSize ≤ Tree.pathLimit) :
    Tree.names plainSurroundings.directory ⟨1, [name]⟩ = .ok [name] :=
  Tree.names_of_plain hhalf hnul hlong

/-- What is asked of the file. -/
theorem endsWell_plainInputs :
    EndsWell (RawFile.modelInputs plainSurroundings ⟨[]⟩ true false) plainFile plainInputs
      { plainFile with exif := some .empty } := by
  have hmosaic : ∃ m, plainFile.mosaicOf = .ok m ∧
      m.plane.extract m.pattern m.calibration true = .ok plainInputs.tensor :=
    ⟨_, by with_unfolding_all rfl, by with_unfolding_all rfl⟩
  have hknown : ∃ known, plainFile.metadataWith .empty = .ok known ∧
      ModelMetadata.ofEntries known.entries = .ok plainInputs.metadata :=
    ⟨_, by with_unfolding_all rfl, by with_unfolding_all rfl⟩
  have hnames := plainNames "a.dng" (by decide) (by simp [Path.text, Path.hasNul]) (by decide)
  have hexif : plainFile.readExif plainSurroundings ⟨[]⟩ = .ok .empty := by
    unfold RawFile.readExif Tree.holds Tree.locate
    simp only [plainFile, RawFile.ofHandle]
    rw [hnames]
    rfl
  rcases hmosaic with ⟨m, hm, htensor⟩
  rcases hknown with ⟨known, hknown, htold⟩
  exact RawFile.endsWell_modelInputs.mpr ⟨m, known, _, hm, htensor,
    RawFile.endsWell_metadata.mpr ⟨.empty, hexif, hknown, rfl⟩, htold, rfl⟩

/-- A file at the top of a tree, where there is no directory of its name. -/
theorem write_plain {files : Tree Content} {name : String} (content : Content)
    (hnames : Tree.names plainSurroundings.directory ⟨1, [name]⟩ = .ok [name])
    (hname : Tree.checkName name = .ok ()) (hup : name ≠ "..")
    (hfree : files.entry? [name] ≠ some .directory) :
    files.write plainSurroundings.directory ⟨1, [name]⟩ content =
      .ok (files.put [name] (.file content)) := by
  refine Tree.write_eq_ok.mpr ⟨[name], ?_, hfree, rfl⟩
  unfold Tree.locate
  refine ok_bind_iff.mpr ⟨[name], hnames, Tree.follow_cons.mpr ⟨rfl, hname, ?_⟩⟩
  rw [if_neg hup]
  rfl

theorem userPath_plain (name : String) (hhalf : Path.hasHalf name = false)
    (hnul : Path.hasNul name = false) (hparts : Path.ofText ("/" ++ name) = ⟨1, [name]⟩)
    (hup : name ≠ "..") : plainSurroundings.userPath ("/" ++ name) = .ok ⟨1, [name]⟩ := by
  unfold Environment.userPath
  rw [hparts]
  refine ok_bind_iff.mpr ⟨⟨1, [name]⟩, rfl, ?_⟩
  rw [Path.resolve_of_plain (by simpa using ⟨hhalf, hnul⟩)]
  simp [Path.join, Path.isAbsolute, Path.climb, hup]

/-- The top is there already. -/
theorem makeDirectory_top (files : Tree Content) :
    files.makeDirectory plainSurroundings.directory ⟨1, []⟩ = .ok files :=
  ok_bind_iff.mpr ⟨[], Tree.names_of_plain (by decide) (by simp [Path.text, Path.hasNul])
    (by decide), rfl⟩

/-- A name at the top for planes whose archive gets a name of its own, and whose record goes to
    `b.json`. -/
structure IsPlainTarget (name archive : String) : Prop where
  target_eq : plainSurroundings.userPath ("/" ++ name) = .ok ⟨1, [name]⟩
  path_eq : TensorArchive.path ⟨1, [name]⟩ = ⟨1, [archive]⟩
  names_eq : Tree.names plainSurroundings.directory ⟨1, [archive]⟩ = .ok [archive]
  checkName_eq : Tree.checkName archive = .ok ()
  ne_up : archive ≠ ".."
  ne_record : archive ≠ "b.json"
  recordPath_eq : Path.withSuffix ⟨1, [name]⟩ ".json" = .ok ⟨1, ["b.json"]⟩

theorem isPlainTarget_archive : IsPlainTarget "b.npz" "b.npz" where
  target_eq := userPath_plain "b.npz" (by decide) (by simp [Path.hasNul]) (by decide) (by decide)
  path_eq := by decide
  names_eq := plainNames "b.npz" (by decide) (by simp [Path.text, Path.hasNul]) (by decide)
  checkName_eq := by decide
  ne_up := by decide
  ne_record := by decide
  recordPath_eq := by with_unfolding_all rfl

/-- What an extraction into an empty file system leaves. -/
def plainFiled (archive text : String) : Tree Content :=
  (Tree.put ⟨[]⟩ [archive] (.file (.archive (.of plainInputs.tensor plainInputs.rgb)))).put
    ["b.json"] (.file (.text text))

section

variable {name archive : String} (h : IsPlainTarget name archive)
include h

theorem exists_plainExtraction :
    ∃ (text : String) (e : Extraction plainSurroundings .standard "/a.dng" ("/" ++ name) true false
      ⟨[]⟩ (plainFiled archive text)),
      e.target = ⟨1, [name]⟩ ∧ e.record = { plainRecord with tensorName := name } := by
  rcases exists_plainRecord_text name with ⟨text, htext⟩
  have hrecord := plainNames "b.json" (by decide) (by simp [Path.text, Path.hasNul]) (by decide)
  let archived : Tree Content :=
    Tree.put ⟨[]⟩ [archive] (.file (.archive (.of plainInputs.tensor plainInputs.rgb)))
  have hfree : archived.entry? ["b.json"] ≠ some .directory := by
    have hnone : archived.entry? ["b.json"] = none := by
      rw [Tree.entry_put (by simp), if_neg (by simpa using h.ne_record.symm)]
      rfl
    rw [hnone]
    nofun
  exact ⟨text, {
    source := ⟨1, ["a.dng"]⟩
    target := ⟨1, [name]⟩
    recordPath := ⟨1, ["b.json"]⟩
    file := plainFile
    asked := { plainFile with exif := some .empty }
    inputs := plainInputs
    made := ⟨[]⟩
    archived
    readied := archived
    record := { plainRecord with tensorName := name }
    text
    source_eq := userPath_plain "a.dng" (by decide) (by simp [Path.hasNul]) (by decide)
      (by decide)
    target_eq := h.target_eq
    file_eq := rfl
    inputs_eq := endsWell_plainInputs
    made_eq := makeDirectory_top _
    archived_eq := by
      rw [h.path_eq]
      exact write_plain _ h.names_eq h.checkName_eq h.ne_up nofun
    record_eq := by with_unfolding_all rfl
    recordPath_eq := h.recordPath_eq
    readied_eq := makeDirectory_top _
    text_eq := htext
    filed_eq := write_plain _ hrecord (by decide) (by decide) hfree }, rfl, rfl⟩

/-- The command line that extracts to a name at the top ends with code zero. -/
theorem exists_run_plain :
    ∃ (text : String) (e : Extraction plainSurroundings .standard "/a.dng" ("/" ++ name) true false
      ⟨[]⟩ (plainFiled archive text)), e.target = ⟨1, [name]⟩ ∧
      (CommandLine.run plainSurroundings ⟨[]⟩
        ⟨none, false, .extract "/a.dng" ("/" ++ name) true false false⟩).1.code = 0 ∧
      (CommandLine.run plainSurroundings ⟨[]⟩
        ⟨none, false, .extract "/a.dng" ("/" ++ name) true false false⟩).2.files =
          plainFiled archive text := by
  rcases exists_plainExtraction h with ⟨text, e, htarget, hrecord⟩
  have hsize : dimensionsText e.record.width e.record.height = .ok "1x1" := by
    rw [hrecord]
    show dimensionsText 1 1 = .ok "1x1"
    exact ok_bind_iff.mpr ⟨_, Value.wholeText_of_small (by decide),
      ok_bind_iff.mpr ⟨_, Value.wholeText_of_small (by decide), rfl⟩⟩
  have hreport (desk : Desk) : ∃ after,
      EndsWell (Command.reportExtraction e.record e.target e.recordPath false) desk ⟨⟩ after :=
    ⟨_, endsWell_liftExcept_bind.mpr ⟨_, hsize, endsWell_bind.mpr ⟨_, _, rfl, rfl⟩⟩⟩
  have hsetUp : EndsWell (setUp plainSurroundings
      ⟨none, false, .extract "/a.dng" ("/" ++ name) true false false⟩) ⟨⟨[]⟩, [], none, []⟩
      .standard ⟨⟨[]⟩, [], none, []⟩ := by
    with_unfolding_all rfl
  rcases hreport _ with ⟨after, hreport⟩
  have hrun := CommandLine.run_of_endsWell hsetUp
    (endsWell_bind.mpr ⟨⟨⟩, after, Command.endsWell_runExtract.mpr ⟨_, e, hreport⟩, rfl⟩)
  refine ⟨text, e, htarget, ?_, ?_⟩
  · rw [hrun]
    rfl
  · rw [hrun]
    exact Command.files_of_reportExtraction hreport

end

theorem code_run_plainLine : (plainLine.run plainSurroundings ⟨[]⟩).1.code = 0 := by
  rcases exists_run_plain isPlainTarget_archive with ⟨_, _, -, hcode, -⟩
  exact hcode

end Darkroom
