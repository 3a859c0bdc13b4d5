import Darkroom.Proofs.Command.Extraction
import Darkroom.Proofs.Json.RoundTrip
import Darkroom.Proofs.Settings.Sections

/-!
# Extraction Records

What the record of an extraction says is so, and the file that is left says the same.

The record is put together after the file is closed, from the metadata that were handed on with the
planes. It says how large the planes are, which mosaic they were taken from, which levels they were
normalised with, and whether developed planes are stored beside them. It is kept as text. What is
said is therefore a property of a table, so that it can be said of the record that was put together
and of what is read in its file alike: reading the text gives the table back, entry by entry.

## Main definitions

* `Value.Describes`: What a table says about an archive is so.
* `Record.readBack`: What is read in the file of a record.

## Theorems

* `ModelMetadata.exists_of_toValue_eq_ok`: The metadata keep their names when they become a table.
* `Record.read_text`: The text of a record is read as the record.
* `Extraction.record_describes`: The record describes the archive.
* `Extraction.readBack_describes`: What is read in its file does so as well.
* `CommandLine.extraction_described`: So does every record that a command leaves.
-/

namespace Darkroom

/-- What a table says about an archive of the readings of a sensor is so: the size, the mosaic, the
    levels that the readings were normalised with, and whether there are developed planes. The
    mosaic and the levels are said in a table of their own. -/
structure Value.Describes (said : Value) (a : TensorArchive) (visible : Samples) : Prop where
  size : ∃ height width, visible.shape = [height, width] ∧
    said.entry? "height" = some (.whole (height / 2 : ℕ)) ∧
    said.entry? "width" = some (.whole (width / 2 : ℕ))
  metadata : ∃ known maximum black subtracts, said.entry? "metadata" = some known ∧
    known.entry? "cfa_pattern" = some (.text "RGGB") ∧
    known.entry? "maximum" = some (.whole maximum) ∧
    known.entry? "black_level" = some (.whole black) ∧
    said.entry? "subtract_black" = some (.flag subtracts) ∧
    a.tensor.Normalizes visible (if 0 < maximum then maximum else 65535)
      (if subtracts then black else 0)
  developed : said.entry? "includes_rgb" = some (.flag a.rgb.isSome)

namespace ModelMetadata

/-- The names of metadata. -/
def names : List String := ["iso", "exposure", "aperture", "focal_length", "wb_coeffs",
  "camera_make", "camera_model", "device_id", "raw_width", "raw_height", "width", "height",
  "black_level", "maximum", "cfa_pattern"]

theorem joined_names : ∀ name ∈ names, Json.joinedText name = name :=
  Json.joinedText_of_mem (by decide)

/-- The metadata keep their names when they become a table. Only the white balance changes. -/
theorem exists_of_toValue_eq_ok {told : ModelMetadata} {value : Value}
    (h : told.toValue = .ok value) :
    ∃ entries, value = .named entries ∧ entries.map Prod.fst = names ∧
      ∀ name, name ≠ "wb_coeffs" → entries.lookup name = told.entries.lookup name := by
  unfold toValue at h
  rcases ok_bind_iff.mp h with ⟨balance, -, h⟩
  cases h
  refine ⟨_, rfl, by rw [List.map_map]; rfl, fun name hname => ?_⟩
  generalize told.entries = entries
  induction entries with
  | nil => rfl
  | cons entry rest ih =>
    rcases entry with ⟨other, value⟩
    rw [List.map_cons, List.lookup_cons, List.lookup_cons, ih]
    by_cases hother : name = other
    · subst hother
      rw [if_neg hname]
    · rw [beq_eq_false_iff_ne.mpr hother]

end ModelMetadata

namespace Record

/-- How records are laid out. -/
def layout : Json.Layout := ⟨true, true⟩

/-- What is read in the file of a record. -/
def readBack (r : Record) : Value := Json.asRead layout (.named r.entries)

/-- The text of a record is read as the record. -/
theorem read_text {r : Record} {text : String} (h : r.text = .ok text) :
    Json.read? text = some r.readBack := by
  unfold Record.text textOfEntries at h
  rcases ok_bind_iff.mp h with ⟨written, hwritten, h⟩
  cases h
  refine Json.read_of_write hwritten ?_
  intro c hc
  rw [show c = '\n' by simpa using hc]
  rfl

/-- The names in a record. -/
def names : List String := ["source_filename", "tensor_filename", "width", "height",
  "channel_order", "subtract_black", "includes_rgb", "metadata", "tool_version", "created_at_utc"]

theorem joined_names : ∀ name ∈ names, Json.joinedText name = name :=
  Json.joinedText_of_mem (by decide)

/-- Each name of a record is read back, with what stands under it. -/
theorem entry_readBack (r : Record) (name : String) :
    r.readBack.entry? name = (Value.entry? (.named r.entries) name).map (Json.asRead layout) := by
  have hnames : r.entries.map Prod.fst = names := rfl
  exact Json.entry_asRead_named (hnames ▸ by decide) (hnames ▸ joined_names) name

end Record

namespace Extraction

variable {env : Environment} {config : Configuration} {input output : String}
  {subtractBlack includeRgb : Bool} {files filed : Tree Content}
  (e : Extraction env config input output subtractBlack includeRgb files filed)

/-- The metadata of a record are a table with the names of metadata. -/
theorem exists_metadata : ∃ known, e.record.metadata = .named known ∧
    known.map Prod.fst = ModelMetadata.names ∧
    ∀ name, name ≠ "wb_coeffs" → known.lookup name = e.inputs.metadata.entries.lookup name := by
  have hrecord := e.record_eq
  generalize e.record = r at hrecord ⊢
  unfold Command.extractionRecord at hrecord
  rcases ok_bind_iff.mp hrecord with ⟨value, hvalue, hpure⟩
  cases hpure
  exact ModelMetadata.exists_of_toValue_eq_ok hvalue

/-- The record describes the archive of the readings that the handle shows. -/
theorem record_describes :
    (Value.named e.record.entries).Describes (.of e.inputs.tensor e.inputs.rgb)
      e.file.handle.visible := by
  rcases e.exists_metadata with ⟨known, hmetadata, -, hlookup⟩
  have hrecord := e.record_eq
  generalize e.record = r at hrecord hmetadata ⊢
  unfold Command.extractionRecord at hrecord
  rcases ok_bind_iff.mp hrecord with ⟨value, -, hpure⟩
  rcases RawFile.describes_of_endsWell_modelInputs e.inputs_eq with
    ⟨maximum, black, hmaximum, hblack, hlabels, htensor⟩
  have hsize := htensor
  rcases hsize with ⟨height, width, hshape, hheight, hwidth, -⟩
  cases hpure
  -- The record repeats the size of the planes and keeps the metadata as they are.
  refine ⟨⟨height, width, hshape, ?_, ?_⟩, ⟨.named known, maximum, black, subtractBlack, ?_, ?_, ?_,
    ?_, ?_, htensor⟩, ?_⟩
  all_goals rw [Value.entry_named]
  · exact congrArg (fun n : ℕ => some (Value.whole n)) hheight
  · exact congrArg (fun n : ℕ => some (Value.whole n)) hwidth
  · exact congrArg some hmetadata
  · exact (hlookup "cfa_pattern" (by decide)).trans (congrArg some hlabels)
  · exact (hlookup "maximum" (by decide)).trans (congrArg some hmaximum)
  · exact (hlookup "black_level" (by decide)).trans (congrArg some hblack)
  · rfl
  · exact congrArg (fun b => some (Value.flag b)) (Option.isSome_map ..).symm

/-- So does what is read in the file of the record. -/
theorem readBack_describes :
    e.record.readBack.Describes (.of e.inputs.tensor e.inputs.rgb) e.file.handle.visible := by
  rcases e.record_describes with ⟨⟨height, width, hshape, hheight, hwidth⟩,
    ⟨known, maximum, black, subtracts, hmetadata, hlabels, hmaximum, hblack, hsubtracts, htensor⟩,
    hdeveloped⟩
  rcases e.exists_metadata with ⟨entries, hentries, hnames, -⟩
  obtain rfl : known = .named entries :=
    (Option.some.inj hmetadata).symm.trans hentries
  have hknown := @Json.entry_asRead_named Record.layout entries (hnames ▸ by decide)
    (hnames ▸ ModelMetadata.joined_names)
  refine ⟨⟨height, width, hshape, ?_, ?_⟩, ⟨Json.asRead Record.layout (.named entries), maximum,
    black, subtracts, ?_, ?_, ?_, ?_, ?_, htensor⟩, ?_⟩
  · rw [Record.entry_readBack, hheight]
    rfl
  · rw [Record.entry_readBack, hwidth]
    rfl
  · rw [Record.entry_readBack, hmetadata]
    rfl
  · rw [hknown, hlabels]
    rfl
  · rw [hknown, hmaximum]
    rfl
  · rw [hknown, hblack]
    rfl
  · rw [Record.entry_readBack, hsubtracts]
    rfl
  · rw [Record.entry_readBack, hdeveloped]
    rfl

end Extraction

namespace CommandLine

/-- A command line that extracts and ends with code zero leaves an archive and the text of the
    record that it has put together. The record describes the archive, and so does what is read in
    its file. -/
theorem extraction_described {env : Environment} {files : Tree Content}
    {line : CommandLine} {input output : String} {subtractBlack withRgb json : Bool}
    (hcommand : line.command = .extract input output subtractBlack withRgb json)
    (hcode : (line.run env files).1.code = 0) :
    ∃ config desk, EndsWell (setUp env line) ⟨files, [], none, []⟩ config desk ∧
      ∃ e : Extraction env config input output (subtractBlack || config.extract.subtractBlack)
          (withRgb || config.extract.includeRgb) desk.files (line.run env files).2.files,
        env.opening = .ok e.file.handle ∧
        (line.run env files).2.files.archiveAt? env.directory (TensorArchive.path e.target) =
          some (.of e.inputs.tensor e.inputs.rgb) ∧
        (Value.named e.record.entries).Describes (.of e.inputs.tensor e.inputs.rgb)
          e.file.handle.visible ∧
        (line.run env files).2.files.read env.directory e.recordPath = .ok (.text e.text) ∧
        Json.read? e.text = some e.record.readBack ∧
        e.record.readBack.Describes (.of e.inputs.tensor e.inputs.rgb) e.file.handle.visible := by
  rcases code_run_eq_zero.mp hcode with ⟨config, desk, hsetUp, hrun⟩
  rw [hcommand] at hrun
  unfold Command.run at hrun
  rcases endsWell_bind.mp hrun with ⟨_, _, hextract, hdone⟩
  rcases endsWell_pure.mp hdone with ⟨-, rfl⟩
  rcases Command.exists_extraction_of_endsWell hextract with ⟨e⟩
  exact ⟨config, desk, hsetUp, e, RawFile.opening_of_ofSource e.file_eq, e.archiveAt,
    e.record_describes, e.read_record, Record.read_text e.text_eq, e.readBack_describes⟩

theorem extraction_described_plainLine :
    (plainLine.run plainSurroundings ⟨[]⟩).1.code = 0 ∧
      ∃ (recordPath : Path) (text : String) (said : Value) (archive : TensorArchive),
        (plainLine.run plainSurroundings ⟨[]⟩).2.files.read ⟨1, []⟩ recordPath = .ok (.text text) ∧
        Json.read? text = some said ∧ said.Describes archive plainHandle.visible := by
  rcases extraction_described rfl code_run_plainLine with
    ⟨config, desk, -, e, hopening, -, -, hread, hback, hdescribes⟩
  have hhandle : e.file.handle = plainHandle := (Except.ok.inj hopening).symm
  rw [hhandle] at hdescribes
  exact ⟨code_run_plainLine, e.recordPath, e.text, e.record.readBack, _, hread, hback, hdescribes⟩

end CommandLine

end Darkroom
