import Darkroom.Proofs.Command.Extraction
import Darkroom.Proofs.Settings.Parsing
import Darkroom.Settings.Loading

/-!
# Documents that are Accepted

Which documents are accepted as configurations, and how the others are refused.

A user who writes something wrong into a document is told so: names that are not known and values
that are bad are refused as bad values. That is the rule, and it holds for every document whose
names are texts, whose sections are tables, and whose values are of the shapes that they are cast
from (`Regular`). Documents of any other shape are refused as well, but not always by that rule. A
number in the place of a list, a list in the place of a number, or a number as a name make an
operation fail that does not fit them, and this is what is reported.

## Main definitions

* `Configuration.Acceptable`: The documents that are accepted.
* `Configuration.Regular`: The documents that are refused for bad values only.
* `Configuration.ReadFrom`: A configuration holds what the entries of a document are worth.

## Theorems

* `Configuration.ofValue_eq_ok_iff`: What is read from a document.
* `Configuration.exists_ofValue_iff`: When a document is accepted.
* `Configuration.ofValue_fails`: How a document is refused.
* `Configuration.load_outcomes`: What becomes of a file with a document.
-/

namespace Darkroom

open Failure

/-- A table all of whose names are known, and whose entries have a property. -/
def Value.IsSection (allowed : List String) (P : Section → Prop) (raw : Value) : Prop :=
  raw.HasOnly allowed ∧ ∃ entries, raw.opened = .table entries ∧ P entries

theorem Value.IsSection.isRegular {allowed : List String} {P fits : Section → Prop} {raw : Value}
    (h : raw.IsSection allowed P) (hP : ∀ entries, P entries → fits entries) :
    raw.IsRegular allowed fits := by
  rcases h with ⟨hnames, entries, hentries, hentriesP⟩
  exact isRegular_of_hasOnly hnames hentries (hP entries hentriesP)

/-! Files that are named in documents. -/

theorem Path.resolve_fails (directory p : Path) : FailsOnly IsBadValue (resolve directory p) := by
  unfold resolve
  refine FailsOnly.bind ?_ fun _ _ => failsOnly_ok _
  generalize p.parts = names
  induction names with
  | nil => exact failsOnly_ok _
  | cons name rest ih =>
    rw [List.forIn_cons]
    refine FailsOnly.bind ?_ fun step _ => ?_
    · simp only
      split
      · exact (failsOnly_error (Or.inr rfl)).bind fun _ h => nomatch h
      · split
        · exact (failsOnly_error (Or.inl rfl)).bind fun _ h => nomatch h
        · exact failsOnly_ok _
    · cases step with
      | done _ => exact failsOnly_ok _
      | yield _ => exact ih

namespace Configuration

theorem namedFile_fails (base : Path) (value : Value) :
    FailsOnly (BadUnless (value = .null ∨ value.IsName)) (namedFile base value) := by
  cases value with
  | null => exact failsOnly_ok none
  | text name =>
    unfold namedFile
    simp only
    split
    · exact failsOnly_ok none
    · split
      · exact failsOnly_ok _
      · exact ((Path.resolve_fails base _).mono fun e he => he.badUnless _).map
  | _ =>
    refine failsOnly_error (badUnless_wrongType ?_)
    rintro (h | ⟨name, h⟩) <;> cases h

theorem namedFile_shape {base : Path} {value : Value} {file : Option Path}
    (h : namedFile base value = .ok file) : value = .null ∨ value.IsName := by
  cases value with
  | null => exact Or.inl rfl
  | text name => exact Or.inr ⟨name, rfl⟩
  | _ => cases h

/-! The entries of a document. -/

/-- The names of a document. -/
def topNames : List String := ["decode", "adjust", "extract", "log_level", "log_file"]

/-- The names of a section on adjusting. -/
def adjustNames : List String := ["saturation", "vibrance", "rows_per_chunk"]

/-- The names of a section on adjusting, by the kinds of their settings. -/
def adjustNamesOf : SettingKind → List String
  | .real => ["saturation", "vibrance"]
  | .wholeOption => ["rows_per_chunk"]
  | _ => []

/-- The names of a section on extracting. Both are flags. -/
def extractNames : List String := ["subtract_black", "include_rgb"]

/-- A document, where nothing and everything empty stand for an empty one. -/
def orEmpty (document : Value) : Value := if document.isTrue then document else .table []

/-- A configuration holds what the entries of a document are worth. -/
structure ReadFrom (base : Path) (entries : Section) (config : Configuration) : Prop where
  adjustHasOnly : (sectionValue entries "adjust").HasOnly adjustNames
  extractHasOnly : (sectionValue entries "extract").HasOnly extractNames
  adjust : adjustSettings (sectionValue entries "adjust") = .ok config.adjust
  extract : extractSettings (sectionValue entries "extract") = .ok config.extract
  decode : DecodeSettings.parse (sectionValue entries "decode") = .ok config.decode
  logLevel : Section.text entries "log_level" "INFO" = .ok config.logLevel
  logFile : namedFile base (Section.get entries "log_file" .null) = .ok config.logFile

/-- Entries from which a configuration can be read. -/
structure AcceptableEntries (base : Path) (entries : Section) : Prop where
  adjust : (sectionValue entries "adjust").IsSection adjustNames
    (Section.AllAre adjustNamesOf Value.IsWorth)
  extract : (sectionValue entries "extract").IsSection extractNames fun _ => True
  decode : (sectionValue entries "decode").IsSection DecodeSettings.keys DecodeSettings.Acceptable
  logLevel : entries.Says "log_level" (Value.IsWorth .text)
  logFile : entries.Says "log_file" fun value => ∃ file, namedFile base value = .ok file

/-- The documents, of files in the directory `base`, that are accepted. -/
def Acceptable (base : Path) (document : Value) : Prop :=
  (orEmpty document).IsSection topNames (AcceptableEntries base)

/-- Entries of the shapes that they are cast from. -/
structure RegularEntries (entries : Section) : Prop where
  adjust : (sectionValue entries "adjust").IsRegular adjustNames
    (Section.AllAre adjustNamesOf Value.MayBe)
  extract : (sectionValue entries "extract").IsRegular extractNames fun _ => True
  decode : (sectionValue entries "decode").IsRegular DecodeSettings.keys
    (Section.AllAre DecodeSettings.namesOf Value.MayBe)
  logFile : entries.Says "log_file" fun value => value = .null ∨ value.IsName

/-- Documents whose names are texts, whose sections are tables, and whose values are of the shapes
    that they are cast from. Of a section with a name that is not known, nothing else matters. -/
def Regular (document : Value) : Prop := (orEmpty document).IsRegular topNames RegularEntries

variable {base : Path} {document raw : Value} {entries : Section} {config : Configuration}

theorem adjustSettings_eq_ok_iff {settings : AdjustSettings} :
    adjustSettings raw = .ok settings ↔ ∃ entries, raw.opened = .table entries ∧
      Section.real entries "saturation" 0 = .ok settings.saturation ∧
      Section.real entries "vibrance" 0 = .ok settings.vibrance ∧
      Section.option entries Value.toWhole "rows_per_chunk" = .ok settings.rowsPerChunk := by
  unfold adjustSettings
  simp only [ok_bind_iff, sectionEntries_eq_ok]
  refine exists_congr fun entries => and_congr_right fun _ => ?_
  constructor
  · rintro ⟨_, hsaturation, _, hvibrance, _, hrows, h⟩
    cases h
    exact ⟨hsaturation, hvibrance, hrows⟩
  · rintro ⟨hsaturation, hvibrance, hrows⟩
    exact ⟨_, hsaturation, _, hvibrance, _, hrows, rfl⟩

theorem extractSettings_eq_ok_iff {settings : ExtractSettings} :
    extractSettings raw = .ok settings ↔ ∃ entries, raw.opened = .table entries ∧
      settings = ⟨Section.flag entries "subtract_black" false,
        Section.flag entries "include_rgb" false⟩ := by
  unfold extractSettings
  simp only [ok_bind_iff, sectionEntries_eq_ok]
  refine exists_congr fun entries => and_congr_right fun _ => ?_
  constructor
  · intro h
    cases h
    rfl
  · rintro rfl
    rfl

/-- What is read from a document. -/
theorem ofValue_eq_ok_iff : ofValue base document = .ok config ↔
    (orEmpty document).IsSection topNames fun entries => ReadFrom base entries config := by
  unfold ofValue
  simp only [ok_bind_iff]
  constructor
  · rintro ⟨_, htop, entries, hentries, _, hadjustNames, _, hextractNames, adjust, hadjust, extract,
      hextract, decode, hdecode, logLevel, hlogLevel, logFile, hlogFile, h⟩
    cases h
    exact ⟨checkKeys_eq_ok_iff.mp htop, entries, sectionEntries_eq_ok.mp hentries,
      checkKeys_eq_ok_iff.mp hadjustNames, checkKeys_eq_ok_iff.mp hextractNames, hadjust, hextract,
      hdecode, hlogLevel, hlogFile⟩
  · rintro ⟨htop, entries, hentries, h⟩
    exact ⟨(), checkKeys_eq_ok_iff.mpr htop, entries, sectionEntries_eq_ok.mpr hentries, (),
      checkKeys_eq_ok_iff.mpr h.adjustHasOnly, (), checkKeys_eq_ok_iff.mpr h.extractHasOnly, _,
      h.adjust, _, h.extract, _, h.decode, _, h.logLevel, _, h.logFile, rfl⟩

/-! When a document is accepted. -/

theorem exists_adjustSettings_iff : (∃ settings, adjustSettings raw = .ok settings) ↔
    ∃ entries, raw.opened = .table entries ∧
      Section.AllAre adjustNamesOf Value.IsWorth entries := by
  simp only [adjustSettings_eq_ok_iff]
  rw [exists_comm]
  refine exists_congr fun entries => ?_
  rw [exists_and_left]
  refine and_congr_right fun _ => ?_
  constructor
  · rintro ⟨settings, hsaturation, hvibrance, hrows⟩ kind
    cases kind with
    | real =>
      simp only [adjustNamesOf, List.forall_mem_cons]
      exact ⟨Section.exists_real_iff.mp ⟨_, hsaturation⟩, Section.exists_real_iff.mp ⟨_, hvibrance⟩,
        nofun⟩
    | wholeOption =>
      simp only [adjustNamesOf, List.forall_mem_cons]
      exact ⟨Section.exists_option_iff.mp ⟨_, hrows⟩, nofun⟩
    | _ => nofun
  · intro h
    have hreal := h .real
    have hwholeOption := h .wholeOption
    simp only [adjustNamesOf, List.forall_mem_cons] at hreal hwholeOption
    rcases Section.exists_real_iff.mpr hreal.1 with ⟨saturation, hsaturation⟩
    rcases Section.exists_real_iff.mpr hreal.2.1 with ⟨vibrance, hvibrance⟩
    rcases Section.exists_option_iff.mpr hwholeOption.1 with ⟨rows, hrows⟩
    exact ⟨⟨saturation, vibrance, rows⟩, hsaturation, hvibrance, hrows⟩

theorem exists_extractSettings_iff : (∃ settings, extractSettings raw = .ok settings) ↔
    ∃ entries, raw.opened = .table entries := by
  simp only [extractSettings_eq_ok_iff]
  rw [exists_comm]
  refine exists_congr fun entries => ?_
  rw [exists_and_left]
  exact and_iff_left ⟨_, rfl⟩

theorem exists_readFrom_iff :
    (∃ config, ReadFrom base entries config) ↔ AcceptableEntries base entries := by
  constructor
  · rintro ⟨config, h⟩
    refine ⟨⟨h.adjustHasOnly, exists_adjustSettings_iff.mp ⟨_, h.adjust⟩⟩, ⟨h.extractHasOnly, ?_⟩,
      DecodeSettings.exists_parse_iff.mp ⟨_, h.decode⟩, Section.exists_text_iff.mp ⟨_, h.logLevel⟩,
      Section.says_of_get .null ⟨_, h.logFile⟩⟩
    simpa using exists_extractSettings_iff.mp ⟨_, h.extract⟩
  · intro h
    rcases exists_adjustSettings_iff.mpr h.adjust.2 with ⟨adjust, hadjust⟩
    have hextract : ∃ entries', (sectionValue entries "extract").opened = .table entries' := by
      simpa using h.extract.2
    rcases exists_extractSettings_iff.mpr hextract with ⟨extract, hextract⟩
    rcases DecodeSettings.exists_parse_iff.mpr h.decode with ⟨decode, hdecode⟩
    rcases Section.exists_text_iff.mpr h.logLevel with ⟨logLevel, hlogLevel⟩
    have hlogFile : ∃ file, namedFile base (Section.get entries "log_file" .null) = .ok file :=
      h.logFile.get ⟨none, rfl⟩
    rcases hlogFile with ⟨logFile, hlogFile⟩
    exact ⟨⟨decode, adjust, extract, logLevel, logFile⟩, h.adjust.1, h.extract.1, hadjust, hextract,
      hdecode, hlogLevel, hlogFile⟩

/-- When a document is accepted. -/
theorem exists_ofValue_iff :
    (∃ config, ofValue base document = .ok config) ↔ Acceptable base document := by
  simp only [ofValue_eq_ok_iff]
  unfold Acceptable Value.IsSection
  rw [exists_and_left]
  refine and_congr_right fun _ => ?_
  rw [exists_comm]
  refine exists_congr fun entries => ?_
  rw [exists_and_left, exists_readFrom_iff]

theorem Acceptable.regular (h : Acceptable base document) : Regular document := by
  refine h.isRegular fun entries h => ?_
  exact ⟨h.adjust.isRegular fun _ => Section.AllAre.mayBe, h.extract.isRegular fun _ => id,
    h.decode.isRegular fun _ h => h.worth.mayBe,
    h.logFile.mono fun _ ⟨_, hfile⟩ => namedFile_shape hfile⟩

/-! How a document is refused. -/

theorem adjustSettings_fails (hnames : raw.HasOnly adjustNames) :
    FailsOnly (BadUnless (raw.IsRegular adjustNames (Section.AllAre adjustNamesOf Value.MayBe)))
      (adjustSettings raw) := by
  unfold adjustSettings
  refine hnames.sectionEntries_fails.bind fun entries hentries => ?_
  refine FailsOnly.mono ?_ (BadUnless.mono fun h => h.entriesFit hnames hentries)
  refine (Section.real_fails (by simp [adjustNamesOf])).bind fun _ _ => ?_
  refine (Section.real_fails (by simp [adjustNamesOf])).bind fun _ _ => ?_
  exact (Section.wholeOption_fails (by simp [adjustNamesOf])).bind fun _ _ => failsOnly_ok _

theorem extractSettings_fails (hnames : raw.HasOnly extractNames) :
    FailsOnly (BadUnless (raw.IsRegular extractNames fun _ => True)) (extractSettings raw) := by
  unfold extractSettings
  exact hnames.sectionEntries_fails.bind fun _ _ => failsOnly_ok _

/-- A document is refused for its values, unless it is irregular. -/
theorem ofValue_fails : FailsOnly (BadUnless (Regular document)) (ofValue base document) := by
  unfold ofValue
  refine (checkKeys_fails.mono (BadUnless.mono And.left)).bind fun _ hkeys => ?_
  have hknown := checkKeys_eq_ok_iff.mp hkeys
  refine hknown.sectionEntries_fails.bind fun entries hentries => ?_
  -- From here on, all that matters of the document is its entries.
  refine FailsOnly.mono ?_ (BadUnless.mono fun h => h.entriesFit hknown hentries)
  refine (checkKeys_fails.mono (BadUnless.mono fun h => h.adjust.1)).bind fun _ hadjust => ?_
  refine (checkKeys_fails.mono (BadUnless.mono fun h => h.extract.1)).bind fun _ hextract => ?_
  refine ((adjustSettings_fails (checkKeys_eq_ok_iff.mp hadjust)).mono
    (BadUnless.mono RegularEntries.adjust)).bind fun _ _ => ?_
  refine ((extractSettings_fails (checkKeys_eq_ok_iff.mp hextract)).mono
    (BadUnless.mono RegularEntries.extract)).bind fun _ _ => ?_
  refine (DecodeSettings.parse_fails.mono (BadUnless.mono RegularEntries.decode)).bind fun _ _ => ?_
  refine (Section.text_fails fun e he => he.badUnless _).bind fun _ _ => ?_
  refine ((namedFile_fails base _).mono (BadUnless.mono fun h => ?_)).bind fun _ _ => failsOnly_ok _
  exact h.logFile.get (Or.inl rfl)

/-! Files with documents. -/

variable {env : Environment} {files : Tree Content} {name : String} {path : Path}
  {content : Content}

theorem load_eq_ofBytes (hlibrary : env.libraries.documents = true)
    (hpath : env.userPath name = .ok path)
    (hcontent : files.read env.directory path = .ok content) :
    load env files (some name) = ofBytes env.readers.document path.parent content.bytes := by
  unfold load
  simp only [hlibrary, hpath]
  show (files.read env.directory path >>= fun content =>
    ofBytes env.readers.document path.parent content.bytes) = _
  rw [hcontent]
  rfl

/-- What a file says is what its document says. -/
theorem load_eq_ofValue (hlibrary : env.libraries.documents = true)
    (hpath : env.userPath name = .ok path) (hcontent : files.read env.directory path = .ok content)
    (hdocument : env.readers.document content.bytes = .ok document) :
    load env files (some name) = ofValue path.parent document := by
  rw [load_eq_ofBytes hlibrary hpath hcontent]
  unfold ofBytes
  rw [hdocument]
  rfl

/-- What becomes of a file with a document. Either the document is accepted, and the entries of its
    sections have only known names and can be cast to what the constraints allow. Or it is refused;
    when it is regular, then for a bad value. An irregular one is refused too, for a bad value or
    because an operation does not fit what it finds. -/
theorem load_outcomes (hlibrary : env.libraries.documents = true)
    (hpath : env.userPath name = .ok path) (hcontent : files.read env.directory path = .ok content)
    (hdocument : env.readers.document content.bytes = .ok document) :
    ((∃ config, load env files (some name) = .ok config) ↔ Acceptable path.parent document) ∧
    (Acceptable path.parent document → Regular document) ∧
    (Regular document → ¬Acceptable path.parent document →
      ∃ failure, load env files (some name) = .error failure ∧ failure.IsBadValue) ∧
    ∀ failure, load env files (some name) = .error failure →
      failure.IsBadValue ∨ (failure.IsMisfit ∧ ¬Regular document) := by
  rw [load_eq_ofValue hlibrary hpath hcontent hdocument]
  refine ⟨exists_ofValue_iff, Acceptable.regular, fun hregular hrefused => ?_, ofValue_fails⟩
  cases hresult : ofValue path.parent document with
  | ok config => exact absurd (exists_ofValue_iff.mp ⟨config, hresult⟩) hrefused
  | error failure =>
    rcases ofValue_fails failure hresult with hbad | ⟨-, hirregular⟩
    · exact ⟨failure, rfl, hbad⟩
    · exact absurd hregular hirregular

/-! Files at the top that hold a document. -/

/-- Surroundings with the library for documents. -/
def readingSurroundings : Environment :=
  { plainSurroundings with libraries := { plainSurroundings.libraries with documents := true } }

def documentFile (text : String) : Tree Content := ⟨[(["a.yaml"], .file (.text text))]⟩

theorem userPath_documentFile : readingSurroundings.userPath "/a.yaml" = .ok ⟨1, ["a.yaml"]⟩ :=
  userPath_plain "a.yaml" (by decide) (by simp [Path.hasNul]) (by decide) (by decide)

theorem read_documentFile (text : String) :
    (documentFile text).read readingSurroundings.directory ⟨1, ["a.yaml"]⟩ = .ok (.text text) := by
  have hnames := plainNames "a.yaml" (by decide) (by simp [Path.text, Path.hasNul]) (by decide)
  refine Tree.read_eq_ok.mpr ⟨["a.yaml"], ok_bind_iff.mpr ⟨_, hnames, ?_⟩, rfl⟩
  exact Tree.follow_cons.mpr ⟨rfl, rfl, rfl⟩

theorem load_documentFile (text : String) :
    load readingSurroundings (documentFile text) (some "/a.yaml") =
      ofBytes readingSurroundings.readers.document ⟨1, []⟩ (Content.text text).bytes := by
  have hparent : Path.parent ⟨1, ["a.yaml"]⟩ = ⟨1, []⟩ := rfl
  rw [load_eq_ofBytes rfl userPath_documentFile (read_documentFile text), hparent]

/-- How a document is refused, if it is. -/
def failureOf (text : String) : Option Failure :=
  match ofBytes readingSurroundings.readers.document ⟨1, []⟩ (Content.text text).bytes with
  | .ok _ => none
  | .error failure => some failure

theorem load_eq_error {text : String} {failure : Failure} (h : failureOf text = some failure) :
    load readingSurroundings (documentFile text) (some "/a.yaml") = .error failure := by
  rw [load_documentFile]
  unfold failureOf at h
  split at h
  · cases h
  · next herror =>
    cases h
    exact herror

theorem exists_load {text : String} (h : failureOf text = none) :
    ∃ config, load readingSurroundings (documentFile text) (some "/a.yaml") = .ok config := by
  rw [load_documentFile]
  unfold failureOf at h
  split at h
  · next hok => exact ⟨_, hok⟩
  · cases h

/-- A document with a curve, an algorithm in small letters and a number in quotes. -/
def curveDocument : String :=
  "adjust:\n  vibrance: '1_0'\ndecode:\n  gamma: [2, 4.5]\n  demosaic: dcb\n"

/-- It is accepted, so its sections have what they need. -/
theorem load_outcomes_curve : ∃ document,
    readingSurroundings.libraries.documents = true ∧
      readingSurroundings.userPath "/a.yaml" = .ok ⟨1, ["a.yaml"]⟩ ∧
      (documentFile curveDocument).read readingSurroundings.directory ⟨1, ["a.yaml"]⟩ =
        .ok (.text curveDocument) ∧
      readingSurroundings.readers.document (Content.text curveDocument).bytes = .ok document ∧
      Acceptable (Path.parent ⟨1, ["a.yaml"]⟩) document ∧ Regular document := by
  have hcontent := read_documentFile curveDocument
  have hnone : failureOf curveDocument = none := by decide +kernel
  rcases exists_load hnone with ⟨config, hload⟩
  have hbytes := hload
  rw [load_documentFile] at hbytes
  rcases ok_bind_iff.mp hbytes with ⟨document, hdocument, -⟩
  have h := load_outcomes rfl userPath_documentFile hcontent hdocument
  have haccepted := h.1.mp ⟨config, hload⟩
  exact ⟨document, rfl, userPath_documentFile, hcontent, hdocument, haccepted, h.2.1 haccepted⟩

/-- A number in the place of the gamma curve, and a number as a name, are not refused as bad
    values. -/
theorem load_irregular :
    load readingSurroundings (documentFile "decode:\n  gamma: 2.2\n") (some "/a.yaml") =
      .error .wrongType ∧
    load readingSurroundings (documentFile "1: 2\n") (some "/a.yaml") = .error .wrongType ∧
    ¬IsBadValue .wrongType :=
  ⟨load_eq_error (by decide +kernel), load_eq_error (by decide +kernel), by simp [IsBadValue, kind]⟩

end Configuration

end Darkroom
