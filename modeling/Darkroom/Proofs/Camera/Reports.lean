import Darkroom.Proofs.Camera.Exposures
import Darkroom.Proofs.Camera.Tags
import Darkroom.Proofs.Command.Extraction
import Darkroom.Proofs.Json.Reading

/-!
# Reports that can be Used

For which reports it is found out what a camera says, and for which files.

Most of what may go wrong with a report does no harm. Without the program, when the program fails,
and when what it writes is no JSON or is nothing, the report says nothing. But once there is a value
in what it writes, that is taken for a list with a table at its front, and the exposure numbers in
the table are taken for real ones. A value of another shape is a failure, and so is a whole number
that is too large. The texts in the table never are, since whatever is read can be shown. What is
nested too deep is a failure before it is known to be JSON at all.

The tags of a file come first, and what the library finds in them may not be read either. Then no
report is asked for.

## Main definitions

* `Value.IsReport`: A list with a table at its front, of which the exposure numbers can be read.
* `Reporter.IsUsable`: What may become of asking for a report without a failure.
* `Exif.IsReportFailure`: The ways in which a report fails.
* `Environment.IsSaidByTags`: The tags of a file say something.

## Theorems

* `Exif.exists_ofRow_iff`, `Exif.exists_ofReport_iff`: The reports that can be used.
* `Exif.isReportFailure_of_ofReport`: How the others fail.
* `Environment.exif_found_iff`: For which files it is found out what a camera says.
-/

namespace Darkroom

namespace Value

theorem exists_shown_of_shownAll {around : List (Nat × String)} {values : List Value}
    {texts : List String} (h : shownAll around values = .ok texts) :
    ∀ value ∈ values, ∃ text, value.shownWithin around = .ok text := by
  induction values generalizing texts with
  | nil => nofun
  | cons value rest ih =>
    rcases ok_bind_iff.mp h with ⟨text, htext, h⟩
    rcases ok_bind_iff.mp h with ⟨more, hmore, -⟩
    intro v hv
    rcases List.mem_cons.mp hv with rfl | hv
    · exact ⟨text, htext⟩
    · exact ih hmore v hv

theorem Showable.of_mem_items {values : List Value} (h : (items values).Showable) :
    ∀ value ∈ values, value.Showable := by
  intro value hvalue around
  rcases h around with ⟨text, htext⟩
  rcases ok_bind_iff.mp htext with ⟨texts, htexts, -⟩
  exact exists_shown_of_shownAll htexts value hvalue

theorem exists_shown_of_shownEntries {around : List (Nat × String)} {entries : List (Value × Value)}
    {texts : List String} (h : shownEntries around entries = .ok texts) :
    ∀ entry ∈ entries, ∃ text, entry.2.shownWithin around = .ok text := by
  induction entries generalizing texts with
  | nil => nofun
  | cons entry rest ih =>
    rcases ok_bind_iff.mp h with ⟨_, -, h⟩
    rcases ok_bind_iff.mp h with ⟨text, htext, h⟩
    rcases ok_bind_iff.mp h with ⟨more, hmore, -⟩
    intro e he
    rcases List.mem_cons.mp he with rfl | he
    · exact ⟨text, htext⟩
    · exact ih hmore e he

theorem Showable.of_mem_table {entries : List (Value × Value)} (h : (table entries).Showable) :
    ∀ entry ∈ entries, entry.2.Showable := by
  intro entry hentry around
  rcases h around with ⟨text, htext⟩
  rcases ok_bind_iff.mp htext with ⟨texts, htexts, -⟩
  exact exists_shown_of_shownEntries htexts entry hentry

/-- What is found in a table that can be shown can be shown, and so can nothing. -/
theorem Showable.lookup {entries : List (Value × Value)} (h : (table entries).Showable)
    (name : String) : ((lookup name entries).getD .null).Showable := by
  cases hfound : Value.lookup name entries with
  | none => exact showable_null
  | some value =>
    rcases Option.map_eq_some_iff.mp hfound with ⟨entry, hentry, rfl⟩
    exact h.of_mem_table entry (List.mem_of_find?_eq_some hentry)

end Value

namespace TagValue

/-- Values in a list are shown as they are in a list of values. -/
theorem shownAll_map_plain (values : List Value) :
    shownAll (values.map plain) = Value.shownAll [] values := by
  induction values with
  | nil => rfl
  | cons value rest ih =>
    rw [List.map_cons, shownAll, ih]
    rfl

theorem exists_shownAll_of_tuple {values : List Value} (h : (Value.tuple values).Showable) :
    ∃ texts, Value.shownAll [] values = .ok texts := by
  rcases h [] with ⟨text, htext⟩
  -- A pair of brackets around one value is written with a comma, so it is a case of its own.
  match values, htext with
  | [], _ => exact ⟨[], rfl⟩
  | [value], htext =>
    rcases ok_bind_iff.mp htext with ⟨shown, hshown, -⟩
    exact ⟨[shown], ok_bind_iff.mpr ⟨shown, hshown, rfl⟩⟩
  | _ :: _ :: _, htext =>
    rcases ok_bind_iff.mp htext with ⟨texts, htexts, -⟩
    exact ⟨texts, htexts⟩

/-- A value that can be shown has a text, or is found to have none. -/
theorem readsLabel_ofValue {value : Value} (h : value.Showable) : (ofValue value).ReadsLabel := by
  have hlabel {value : TagValue} (htext : ∃ text, value.asText = .ok text) : value.ReadsLabel := by
    rcases htext with ⟨text, htext⟩
    unfold ReadsLabel label?
    split
    · exact ⟨none, rfl⟩
    · exact ⟨_, ok_bind_iff.mpr ⟨text, htext, rfl⟩⟩
  have hitems {values : List Value} (hshown : ∃ texts, Value.shownAll [] values = .ok texts) :
      (items (values.map plain)).ReadsLabel := by
    rcases hshown with ⟨texts, htexts⟩
    refine hlabel ⟨_, ok_bind_iff.mpr ⟨texts, ?_, rfl⟩⟩
    rw [shownAll_map_plain, htexts]
  cases value with
  | items values =>
    rcases h [] with ⟨text, htext⟩
    rcases ok_bind_iff.mp htext with ⟨texts, htexts, -⟩
    exact hitems ⟨texts, htexts⟩
  | tuple values => exact hitems (exists_shownAll_of_tuple h)
  | text s => exact hlabel ⟨s, rfl⟩
  | day d => exact hlabel ⟨_, rfl⟩
  | moment m => exact hlabel ⟨_, rfl⟩
  | _ => exact hlabel (h [])

end TagValue

/-- A list with a table at its front, of which the exposure numbers are not too large. -/
def Value.IsReport (rows : Value) : Prop :=
  ∃ entries rest, rows = .items (.table entries :: rest) ∧
    ∀ number : Exposure, ((lookup number.name entries).getD .null).firstPart.FitsReal

/-- What may become of asking for a report without a failure: there has to be room for what is
    written, and if it is JSON with something in it, it has to be a report. -/
def Reporter.IsUsable (room : ℕ) : Reporter → Prop
  | missing | failing => True
  | answers output code => code = 0 →
    (∀ part, Json.read room output ≠ .error (.tooDeep part)) ∧
      ∀ rows, Json.read room output = .ok rows → rows.isTrue = true → rows.IsReport

namespace Exif

/-- What a table says of a name has a text, or is found to have none. -/
theorem readsLabel_inRow {entries : List (Value × Value)} (h : (Value.table entries).Showable)
    (name : String) : (TagValue.ofValue ((Value.lookup name entries).getD .null)).ReadsLabel :=
  TagValue.readsLabel_ofValue (h.lookup name)

/-- A table of values that can be shown is read when its exposure numbers are not too large. -/
theorem exists_ofRow_iff {entries : List (Value × Value)} (h : (Value.table entries).Showable) :
    (∃ e, ofRow (.table entries) = .ok e) ↔
      ∀ number : Exposure, ((Value.lookup number.name entries).getD .null).firstPart.FitsReal := by
  simp only [← TagValue.readsNumber_ofValue_iff]
  refine (exists_ofValues_iff _ _ _ _ _ _ _).trans ?_
  constructor
  · rintro ⟨-, hiso, hshutter, haperture, hfocal⟩ number
    cases number with
    | iso => exact hiso
    | shutter => exact hshutter
    | aperture => exact haperture
    | focalLength => exact hfocal
  · intro hnumber
    have hlabel := readsLabel_inRow h
    exact ⟨⟨hlabel _, hlabel _, hlabel _⟩, hnumber .iso, hnumber .shutter, hnumber .aperture,
      hnumber .focalLength⟩

/-- A list is read as its first table. -/
theorem exists_ofRow_head_iff {row : Value} {rest : List Value}
    (h : (Value.items (row :: rest)).Showable) :
    (∃ e, ofRow row = .ok e) ↔ (Value.items (row :: rest)).IsReport := by
  by_cases htable : ∃ entries, row = .table entries
  · rcases htable with ⟨entries, rfl⟩
    refine (exists_ofRow_iff (h.of_mem_items _ List.mem_cons_self)).trans ⟨?_, ?_⟩
    · intro hnumber
      exact ⟨entries, rest, rfl, hnumber⟩
    · rintro ⟨_, _, heq, hnumber⟩
      cases heq
      exact hnumber
  · -- What is no table has no entries to ask for.
    refine iff_of_false ?_ ?_
    · rintro ⟨e, he⟩
      cases row with
      | table entries => exact htable ⟨entries, rfl⟩
      | _ => cases he
    · rintro ⟨entries, rest, heq, -⟩
      cases heq
      exact htable ⟨entries, rfl⟩

/-- What is written is used when there is nothing in it, or when it is a report. -/
theorem exists_ofRows_iff {rows : Value} (h : rows.Showable) :
    (∃ e, ofRows rows = .ok e) ↔ (rows.isTrue = true → rows.IsReport) := by
  unfold ofRows
  by_cases htrue : rows.isTrue = true
  · rw [if_neg (by simp [htrue]), imp_iff_right htrue]
    cases rows with
    | items values =>
      cases values with
      | nil => cases htrue
      | cons row rest => exact exists_ofRow_head_iff h
    | _ => exact iff_of_false (not_exists_ok _) nofun
  · rw [if_pos (by simp [htrue])]
    exact iff_of_true ⟨empty, rfl⟩ fun h => absurd h htrue

/-- Either there is nothing to be read, or there is no room for it, or what is read decides. -/
theorem ofReport_cases (room : ℕ) (reporter : Reporter) :
    (ofReport room reporter = .ok empty ∧ reporter.IsUsable room) ∨
      (∃ part, ofReport room reporter = .error (.nestedReport part) ∧ ¬reporter.IsUsable room) ∨
      ∃ rows : Value, rows.Showable ∧ ofReport room reporter = ofRows rows ∧
        (reporter.IsUsable room ↔ (rows.isTrue = true → rows.IsReport)) := by
  cases reporter with
  | missing => exact Or.inl ⟨rfl, trivial⟩
  | failing => exact Or.inl ⟨rfl, trivial⟩
  | answers output code =>
    simp only [ofReport, Reporter.IsUsable]
    by_cases hcode : code = 0
    · simp only [hcode, ne_eq, not_true_eq_false, if_false, forall_true_left]
      rcases hread : Json.read room output with (_ | part) | rows
      · exact Or.inl ⟨rfl, by simp, by simp⟩
      · exact Or.inr (Or.inl ⟨part, rfl, fun h => h.1 part rfl⟩)
      · refine Or.inr (Or.inr ⟨rows, Json.showable_of_read hread, rfl, ?_⟩)
        simp only [reduceCtorEq, not_false_eq_true, implies_true, true_and, Except.ok.injEq,
          forall_eq']
    · rw [if_pos hcode]
      exact Or.inl ⟨rfl, fun h => absurd h hcode⟩

/-- The reports that can be used. -/
theorem exists_ofReport_iff (room : ℕ) (reporter : Reporter) :
    (∃ e, ofReport room reporter = .ok e) ↔ reporter.IsUsable room := by
  rcases ofReport_cases room reporter with ⟨hempty, husable⟩ | ⟨part, hdeep, hunusable⟩ |
    ⟨rows, hshowable, hrows, husable⟩
  · exact iff_of_true ⟨empty, hempty⟩ husable
  · rw [hdeep]
    exact iff_of_false (not_exists_ok _) hunusable
  · rw [hrows, husable]
    exact exists_ofRows_iff hshowable

/-- What is said fails to be read where one of the four numbers does. -/
theorem number?_of_ofValues {make model timestamp iso shutter aperture focalLength : TagValue}
    (hlabels : make.ReadsLabel ∧ model.ReadsLabel ∧ timestamp.ReadsLabel) {failure : Failure}
    (h : ofValues make model timestamp iso shutter aperture focalLength = .error failure) :
    ∃ value ∈ [iso, shutter, aperture, focalLength], value.number? = .error failure := by
  rcases hlabels with ⟨⟨a, ha⟩, ⟨b, hb⟩, c, hc⟩
  unfold ofValues at h
  rw [ha, hb, hc] at h
  simp only [error_bind_iff, pure, Except.pure, reduceCtorEq, and_false, exists_false, or_false,
    false_or] at h
  rcases h with ⟨_, -, _, -, _, -, h⟩
  simp only [List.mem_cons, List.not_mem_nil, or_false, exists_eq_or_imp, exists_eq_left]
  rcases h with h | ⟨_, -, h | ⟨_, -, h | ⟨_, -, h⟩⟩⟩
  · exact Or.inl h
  · exact Or.inr (Or.inl h)
  · exact Or.inr (Or.inr (Or.inl h))
  · exact Or.inr (Or.inr (Or.inr h))

/-- A table of values that can be shown fails to be read only at a number that is too large. -/
theorem ofRow_eq_error {entries : List (Value × Value)} (h : (Value.table entries).Showable)
    {failure : Failure} (herror : ofRow (.table entries) = .error failure) :
    failure = .tooLargeForReal := by
  have hlabel := readsLabel_inRow h
  rcases number?_of_ofValues ⟨hlabel _, hlabel _, hlabel _⟩ herror with ⟨value, hvalue, hnumber⟩
  have hread : ∃ told, value = TagValue.ofValue told := by
    simp only [List.mem_cons, List.not_mem_nil, or_false] at hvalue
    rcases hvalue with rfl | rfl | rfl | rfl
    all_goals exact ⟨_, rfl⟩
  rcases hread with ⟨told, rfl⟩
  rw [TagValue.number?_ofValue] at hnumber
  exact TagValue.realOr?_eq_error hnumber

/-- The ways in which a report fails to be used for what is in it. -/
def reportFailures : List Failure :=
  [.wrongAttribute, .wrongType, .missingKey "0", .tooLargeForReal]

/-- The ways in which a report fails to be used. -/
def IsReportFailure (failure : Failure) : Prop :=
  failure ∈ reportFailures ∨ ∃ part, failure = .nestedReport part

theorem mem_reportFailures_of_ofRows {rows : Value} (h : rows.Showable) {failure : Failure}
    (herror : ofRows rows = .error failure) : failure ∈ reportFailures := by
  unfold ofRows at herror
  by_cases hfalse : (!rows.isTrue) = true
  · rw [if_pos hfalse] at herror
    cases herror
  · rw [if_neg hfalse] at herror
    split at herror
    · next row rest =>
      have hrow := h.of_mem_items row List.mem_cons_self
      cases row with
      | table entries =>
        rw [ofRow_eq_error hrow herror]
        simp [reportFailures]
      | _ =>
        cases herror
        simp [reportFailures]
    · cases herror
      simp [reportFailures]
    · cases herror
      simp [reportFailures]
    · cases herror
      simp [reportFailures]

/-- A report that cannot be used fails in one of these ways. -/
theorem isReportFailure_of_ofReport {room : ℕ} {reporter : Reporter} {failure : Failure}
    (h : ofReport room reporter = .error failure) : IsReportFailure failure := by
  rcases ofReport_cases room reporter with ⟨hempty, -⟩ | ⟨part, hdeep, -⟩ |
    ⟨rows, hshowable, hrows, -⟩
  · cases hempty.symm.trans h
  · exact Or.inr ⟨part, Except.error.inj (h.symm.trans hdeep)⟩
  · exact Or.inl (mem_reportFailures_of_ofRows hshowable (hrows ▸ h))

/-- There is always a report that is nested too deep. -/
theorem ofReport_openings (room : ℕ) :
    ofReport room (.answers (Json.openings (room + 1)) 0) = .error (.nestedReport "array") := by
  simp only [ofReport, Json.read_openings]
  rfl

/-- An exposure time that is too large for a real number is a failure. -/
theorem ofTags_largeTime {n : ℤ} (h : (Binary.ofInt n : Double).isFinite = false) :
    ofTags [("EXIF ExposureTime", .plain (.whole n))] = .error .tooLargeForReal := by
  have hreal : realOfWhole n = .error .tooLargeForReal := by simp [realOfWhole, h]
  have hnumber : TagValue.realOr? (.whole n) = .error .tooLargeForReal := by
    unfold TagValue.realOr?
    rw [Value.toReal, hreal]
  show ((TagValue.realOr? (.whole n) >>= fun x => pure (TagValue.positive? x)) >>= _) = _
  rw [hnumber]
  rfl

end Exif

namespace Environment

/-- A file may have tags that can be read, by its ending. -/
def MayHaveTags (path : Path) : Prop := taggedEndings.contains (lowerCase path.suffix) = true

/-- A file may have tags, and they say something. -/
def IsSaidByTags (env : Environment) (path : Path) (content : Content) : Prop :=
  MayHaveTags path ∧ ∃ e, env.exifOfBytes content.bytes = .ok e ∧ e.isEmpty = false

/-- The tags of a file that may have any come first. -/
theorem exifOfFile_of_mayHaveTags (env : Environment) {files : Tree Content} {path : Path}
    {content : Content} (h : files.read env.directory path = .ok content)
    (htagged : MayHaveTags path) :
    env.exifOfFile files path = env.exifOfBytes content.bytes >>= fun tags =>
      if tags.isEmpty then Exif.ofReport env.readers.reportRoom env.reporter else .ok tags := by
  unfold exifOfFile
  rw [if_pos (show taggedEndings.contains (lowerCase path.suffix) = true from htagged), h]
  rfl

/-- A report is only asked for when the tags of a file are read and say nothing. -/
theorem exifOfFile_cases (env : Environment) {files : Tree Content} {path : Path}
    {content : Content} (h : files.read env.directory path = .ok content) :
    (MayHaveTags path ∧ ∃ failure, env.exifOfBytes content.bytes = .error failure ∧
        env.exifOfFile files path = .error failure) ∨
      (env.IsSaidByTags path content ∧ ∃ e, env.exifOfFile files path = .ok e) ∨
      ((MayHaveTags path → env.ReadsTags content.bytes) ∧ ¬env.IsSaidByTags path content ∧
        env.exifOfFile files path = Exif.ofReport env.readers.reportRoom env.reporter) := by
  by_cases htagged : MayHaveTags path
  · rw [env.exifOfFile_of_mayHaveTags h htagged]
    cases he : env.exifOfBytes content.bytes with
    | error failure => exact Or.inl ⟨htagged, failure, rfl, rfl⟩
    | ok e =>
      by_cases hempty : e.isEmpty = true
      · -- The tags are there, but say nothing.
        refine Or.inr (Or.inr ⟨fun _ => (env.exists_exifOfBytes_iff _).mp ⟨e, he⟩, ?_,
          if_pos hempty⟩)
        rintro ⟨-, _, heq, hsaid⟩
        cases he.symm.trans heq
        rw [hempty] at hsaid
        cases hsaid
      · exact Or.inr (Or.inl ⟨⟨htagged, e, he, by simpa using hempty⟩, e, if_neg hempty⟩)
  · refine Or.inr (Or.inr ⟨fun h => absurd h htagged, fun hsaid => htagged hsaid.1, ?_⟩)
    unfold exifOfFile
    rw [if_neg (show ¬taggedEndings.contains (lowerCase path.suffix) = true from htagged)]
    rfl

/-- Extraction is best-effort but for the values of tags and for reports. Tags are read when each of
    them can be, and bytes when those of the tags that are looked at can. So is a file that is there:
    its tags have to be read, if it may have any, and unless they say something the report has to be
    used. If not, then the failure is that of the tags, or the report has one of a few failures. -/
theorem exif_found_iff (env : Environment) (files : Tree Content) :
    (∀ tags : Exif.Tags, (∀ tag ∈ tags, tag.2.IsLegible) → ∃ e, Exif.ofTags tags = .ok e) ∧
    (∀ data, (∃ e, env.exifOfBytes data = .ok e) ↔ env.ReadsTags data) ∧
    ∀ path content, files.read env.directory path = .ok content →
      ((∃ e, env.exifOfFile files path = .ok e) ↔
        (MayHaveTags path → env.ReadsTags content.bytes) ∧
          (env.IsSaidByTags path content ∨ env.reporter.IsUsable env.readers.reportRoom)) ∧
      ∀ failure, env.exifOfFile files path = .error failure →
        (MayHaveTags path ∧ env.exifOfBytes content.bytes = .error failure) ∨
          Exif.IsReportFailure failure := by
  refine ⟨fun tags htags => (Exif.exists_ofTags_iff tags).mpr (Exif.areRead_of_isLegible htags),
    env.exists_exifOfBytes_iff, ?_⟩
  intro path content hread
  rcases env.exifOfFile_cases hread with ⟨htagged, failure, htags, hfile⟩ | ⟨hsaid, e, he⟩ |
    ⟨hfits, hsilent, hreport⟩
  · -- The tags are not read, and then nothing else is asked.
    rw [hfile]
    have hnot : ¬env.ReadsTags content.bytes := by
      rw [← exists_exifOfBytes_iff, htags]
      exact not_exists_ok failure
    refine ⟨iff_of_false (not_exists_ok failure) fun h => hnot (h.1 htagged), ?_⟩
    rintro _ ⟨⟩
    exact Or.inl ⟨htagged, htags⟩
  · rcases hsaid.2 with ⟨said, hsaidOk, -⟩
    have hfits := (env.exists_exifOfBytes_iff _).mp ⟨said, hsaidOk⟩
    refine ⟨iff_of_true ⟨e, he⟩ ⟨fun _ => hfits, Or.inl hsaid⟩, ?_⟩
    intro failure hfailure
    cases he.symm.trans hfailure
  · rw [hreport, Exif.exists_ofReport_iff]
    refine ⟨?_, fun failure hfailure => Or.inr (Exif.isReportFailure_of_ofReport hfailure)⟩
    rw [and_iff_right hfits, or_iff_right hsilent]

/-- Surroundings with the library for tags, where the program about pictures writes something. -/
def reportedSurroundings (output : String) : Environment :=
  { plainSurroundings with
    libraries := { plainSurroundings.libraries with tags := true }
    reporter := .answers output 0 }

/-- An empty file, which may have tags, but has none. -/
def untaggedFiles : Tree Content := ⟨[(["a.dng"], .file (.text ""))]⟩

theorem read_untaggedFiles (env : Environment) (h : env.directory = ⟨1, []⟩) :
    untaggedFiles.read env.directory ⟨1, ["a.dng"]⟩ = .ok (.text "") := by
  have hnames := plainNames "a.dng" (by decide) (by simp [Path.text, Path.hasNul]) (by decide)
  rw [h]
  refine Tree.read_eq_ok.mpr ⟨["a.dng"], ok_bind_iff.mpr ⟨_, hnames, ?_⟩, rfl⟩
  exact Tree.follow_cons.mpr ⟨rfl, rfl, rfl⟩

/-- A report of a table with nothing in it is used. -/
theorem exif_found_empty_table :
    untaggedFiles.read (reportedSurroundings "[\x7b\x7d]").directory ⟨1, ["a.dng"]⟩ =
        .ok (.text "") ∧
      ∃ e, (reportedSurroundings "[\x7b\x7d]").exifOfFile untaggedFiles ⟨1, ["a.dng"]⟩ = .ok e := by
  have hread := read_untaggedFiles (reportedSurroundings "[\x7b\x7d]") rfl
  have hfound :=
    ((exif_found_iff (reportedSurroundings "[\x7b\x7d]") untaggedFiles).2.2 _ _ hread).1
  refine ⟨hread, hfound.mpr ⟨fun _ => readsTags_of_read? rfl _, Or.inr fun _ => ?_⟩⟩
  have hempty : Json.read 989 "[\x7b\x7d]" = .ok (.items [.table []]) := by
    with_unfolding_all rfl
  refine ⟨fun part hdeep => ?_, fun rows hrows _ => ?_⟩
  · cases hempty.symm.trans hdeep
  · cases hempty.symm.trans hrows
    refine ⟨[], [], rfl, ?_⟩
    rintro number n ⟨⟩

/-- Surroundings with a library that finds an exposure time too large for a real number. -/
def endlessSurroundings : Environment :=
  { reportedSurroundings "" with
    readers := { Readers.standard with
      tags := fun _ => some [("EXIF ExposureTime", .plain (.whole (tenTo 400 : ℕ)))] } }

theorem exifOfFile_reported (output : String) :
    (reportedSurroundings output).exifOfFile untaggedFiles ⟨1, ["a.dng"]⟩ =
      Exif.ofReport 989 (.answers output 0) := by
  have hread := read_untaggedFiles (reportedSurroundings output) rfl
  have hsilent : (reportedSurroundings output).exifOfBytes (Content.text "").bytes =
      .ok .empty := by with_unfolding_all rfl
  rcases (reportedSurroundings output).exifOfFile_cases hread with ⟨-, failure, hfailure, -⟩ |
    ⟨⟨-, e, he, hsaid⟩, -⟩ | ⟨-, -, hreport⟩
  · cases hsilent.symm.trans hfailure
  · cases hsilent.symm.trans he
    cases hsaid
  · exact hreport

/-- A report that is a number is a failure, though the file is there, and so is one that is nested
    too deep, and a tag that is too large. -/
theorem exif_not_found :
    untaggedFiles.read (reportedSurroundings "5").directory ⟨1, ["a.dng"]⟩ = .ok (.text "") ∧
      (reportedSurroundings "5").exifOfFile untaggedFiles ⟨1, ["a.dng"]⟩ = .error .wrongType ∧
      (reportedSurroundings (Json.openings 990)).exifOfFile untaggedFiles ⟨1, ["a.dng"]⟩ =
        .error (.nestedReport "array") ∧
      endlessSurroundings.exifOfFile untaggedFiles ⟨1, ["a.dng"]⟩ = .error .tooLargeForReal := by
  have hendless : endlessSurroundings.exifOfBytes (Content.text "").bytes =
      .error .tooLargeForReal := by
    have hlarge : (Binary.ofInt (tenTo 400 : ℕ) : Double).isFinite = false := by decide +kernel
    exact Exif.ofTags_largeTime hlarge
  refine ⟨read_untaggedFiles (reportedSurroundings "5") rfl, ?_, ?_, ?_⟩
  · rw [exifOfFile_reported]
    with_unfolding_all rfl
  · rw [exifOfFile_reported]
    exact Exif.ofReport_openings 989
  · rcases endlessSurroundings.exifOfFile_cases (read_untaggedFiles endlessSurroundings rfl) with
      ⟨-, failure, hfailure, hfile⟩ | ⟨⟨-, e, he, -⟩, -⟩ | ⟨hreads, -, -⟩
    · cases hendless.symm.trans hfailure
      exact hfile
    · cases hendless.symm.trans he
    · have htagged : MayHaveTags ⟨1, ["a.dng"]⟩ := show taggedEndings.contains _ = true by decide
      rcases (exists_exifOfBytes_iff _ _).mpr (hreads htagged) with ⟨e, he⟩
      cases hendless.symm.trans he

end Environment

end Darkroom
