import Darkroom.Proofs.Command.ExtractionRecord
import Darkroom.Proofs.Command.Failures
import Darkroom.Proofs.Command.Keys
import Darkroom.Proofs.Settings.Documents

/-!
# Flags in Place of Keys

Whether a flag is told on the command line or written into the configuration makes no difference.

A configuration is traced back to the document it is read from, in two parts: what it holds under
the keys that flags stand for is what the document says there, and everything else does not depend
on what it says there. So documents that differ at some keys only give configurations that become
one when flags tell the values of these keys, and then the commands do the same.

## Main definitions

* `Configuration.saidAt`: What a document says under a name of a section.
* `Configuration.AgreeExcept`: Documents that differ at some keys only.
* `Configuration.HasDocument`: The document that a configuration is loaded from.

## Theorems

* `Configuration.ReadAt.cast_saidAt`: What a configuration holds under the keys of flags.
* `Configuration.AgreeExcept.rest_eq`: What it holds elsewhere.
* `CommandLine.flags_as_keys`: Command lines with flags, and without them.
-/

namespace Darkroom

/-! What documents say. -/

/-- The entries of a table. Anything else has none. -/
def Value.entries (value : Value) : Section :=
  match value.opened with
  | .table entries => entries
  | _ => []

theorem Value.entries_eq {value : Value} {entries : Section} (h : value.opened = .table entries) :
    value.entries = entries := by
  unfold Value.entries
  rw [h]

theorem FlagKey.place_ne {key other : FlagKey} (h : key ≠ other) : key.place ≠ other.place := by
  cases key <;> cases other <;> first | exact absurd rfl h | simp [place]

namespace Configuration

variable {base base' : Path} {document document' : Value} {c d : Configuration}
  {keys : List FlagKey}

/-- The entries of a section of a document. -/
def sectionAt (document : Value) (name : String) : Section :=
  (sectionValue (orEmpty document).entries name).entries

/-- What a document says in a section under a name, if anything. -/
def saidAt (document : Value) (place : String × String) : Option Value :=
  Value.lookup place.2 (sectionAt document place.1)

/-- What is read from a document, name by name. -/
structure ReadAt (base : Path) (document : Value) (c : Configuration) : Prop where
  saturation : Section.real (sectionAt document "adjust") "saturation" 0 = .ok c.adjust.saturation
  vibrance : Section.real (sectionAt document "adjust") "vibrance" 0 = .ok c.adjust.vibrance
  rowsPerChunk : Section.option (sectionAt document "adjust") Value.toWhole "rows_per_chunk" =
    .ok c.adjust.rowsPerChunk
  extract : c.extract = ⟨Section.flag (sectionAt document "extract") "subtract_black" false,
    Section.flag (sectionAt document "extract") "include_rgb" false⟩
  decode : c.decode.ReadFrom (sectionAt document "decode")
  logLevel : Section.text (orEmpty document).entries "log_level" "INFO" = .ok c.logLevel
  logFile : namedFile base (Section.get (orEmpty document).entries "log_file" .null) = .ok c.logFile

theorem readAt_of_ofValue (h : ofValue base document = .ok c) : ReadAt base document c := by
  rcases ofValue_eq_ok_iff.mp h with ⟨-, entries, hentries, h⟩
  rcases adjustSettings_eq_ok_iff.mp h.adjust with ⟨adjust, hadjust, hsaturation, hvibrance, hrows⟩
  rcases extractSettings_eq_ok_iff.mp h.extract with ⟨extract, hextract, hflags⟩
  rcases DecodeSettings.parse_eq_ok_iff.mp h.decode with ⟨-, decode, hdecode, hread, -⟩
  have hdocument := Value.entries_eq hentries
  have hadjustAt : sectionAt document "adjust" = adjust := by
    rw [sectionAt, hdocument, Value.entries_eq hadjust]
  have hextractAt : sectionAt document "extract" = extract := by
    rw [sectionAt, hdocument, Value.entries_eq hextract]
  have hdecodeAt : sectionAt document "decode" = decode := by
    rw [sectionAt, hdocument, Value.entries_eq hdecode]
  constructor
  · rw [hadjustAt, hsaturation]
  · rw [hadjustAt, hvibrance]
  · rw [hadjustAt, hrows]
  · rw [hextractAt, hflags]
  · rw [hdecodeAt]
    exact hread
  · rw [hdocument, h.logLevel]
  · rw [hdocument, h.logFile]

/-- Under the keys of flags, a configuration holds what its document says there. -/
theorem ReadAt.cast_saidAt (h : ReadAt base document c) (key : FlagKey) :
    key.cast ((saidAt document key.place).getD key.default) = .ok (c.valueAt key) := by
  cases key with
  | saturation => exact congrArg (Value.real <$> ·) h.saturation
  | vibrance => exact congrArg (Value.real <$> ·) h.vibrance
  | outputDepth => exact congrArg (Value.whole <$> ·) h.decode.outputBps
  | halfSize => exact congrArg (fun b : Bool => Except.ok (Value.flag b)) h.decode.halfSize.symm
  | subtractBlack =>
    exact congrArg (fun e : ExtractSettings => Except.ok (Value.flag e.subtractBlack))
      h.extract.symm
  | includeRgb =>
    exact congrArg (fun e : ExtractSettings => Except.ok (Value.flag e.includeRgb)) h.extract.symm

/-- Documents that say the same but for the values of some keys. The places of the documents matter
    only for the file of the journal, which may be named from there. -/
structure AgreeExcept (keys : List FlagKey) (base base' : Path) (document document' : Value) :
    Prop where
  logLevel : Value.lookup "log_level" (orEmpty document).entries =
    Value.lookup "log_level" (orEmpty document').entries
  logFile : namedFile base (Section.get (orEmpty document).entries "log_file" .null) =
    namedFile base' (Section.get (orEmpty document').entries "log_file" .null)
  sections : ∀ place, (∀ key ∈ keys, place ≠ key.place) →
    saidAt document place = saidAt document' place

/-- Configurations are the same elsewhere when they are read from documents that agree there. -/
theorem AgreeExcept.rest_eq (h : AgreeExcept keys base base' document document')
    (hc : ReadAt base document c) (hd : ReadAt base' document' d) : c.rest = d.rest := by
  have hrows : c.adjust.rowsPerChunk = d.adjust.rowsPerChunk := by
    refine ok_unique (Section.option_congr ?_ _) hc.rowsPerChunk hd.rowsPerChunk
    exact h.sections ("adjust", "rows_per_chunk") fun key _ => by cases key <;> simp [FlagKey.place]
  have hdecode := hc.decode.unique hd.decode fun name hname => by
    refine h.sections ("decode", name) fun key _ => ?_
    cases key <;> simp_all [FlagKey.place]
  have hlevel := ok_unique (Section.text_congr h.logLevel _) hc.logLevel hd.logLevel
  have hfile := ok_unique h.logFile hc.logFile hd.logFile
  calc c.rest
      = rest ⟨{ c.decode with halfSize := d.decode.halfSize, outputBps := d.decode.outputBps },
          ⟨d.adjust.saturation, d.adjust.vibrance, c.adjust.rowsPerChunk⟩, d.extract, c.logLevel,
          c.logFile⟩ := rfl
    _ = d.rest := by rw [hdecode, hrows, hlevel, hfile]

theorem AgreeExcept.valueAt_eq (h : AgreeExcept keys base base' document document')
    (hc : ReadAt base document c) (hd : ReadAt base' document' d) {key : FlagKey}
    (hkey : key ∉ keys) : c.valueAt key = d.valueAt key := by
  have hsaid : saidAt document key.place = saidAt document' key.place :=
    h.sections key.place fun other hother =>
      FlagKey.place_ne fun heq => hkey (heq ▸ hother)
  exact ok_unique (by rw [hsaid]) (hc.cast_saidAt key) (hd.cast_saidAt key)

/-- The document that a configuration is loaded from, in a directory. Where none is named, nothing
    is said. -/
def HasDocument (env : Environment) (files : Tree Content) (base : Path) :
    Option String → Value → Prop
  | none, document => document = .null
  | some name, document => env.libraries.documents = true ∧ ∃ path content,
      env.userPath name = .ok path ∧ path.parent = base ∧
      files.read env.directory path = .ok content ∧
      env.readers.document content.bytes = .ok document

theorem HasDocument.readAt {env : Environment} {files : Tree Content} {name : Option String}
    (h : HasDocument env files base name document) (hload : load env files name = .ok c) :
    ReadAt base document c := by
  refine readAt_of_ofValue ?_
  cases name with
  | none =>
    cases h
    exact hload
  | some name =>
    rcases h with ⟨hlibrary, path, content, hpath, rfl, hcontent, hdocument⟩
    rwa [load_eq_ofValue hlibrary hpath hcontent hdocument] at hload

/-! A document that sets the smaller size. -/

def halfSizeText : String := "decode:\n  half_size: true\n"

def halfSizeDocument : Value := .named [("decode", .named [("half_size", .flag true)])]

/-- Whether a document is the one that sets the smaller size. -/
def isHalfSizeDocument : Except Failure Value → Bool
  | .ok (.table [(.text outer, .table [(.text inner, .flag true)])]) =>
    outer = "decode" && inner = "half_size"
  | _ => false

theorem eq_of_isHalfSizeDocument {result : Except Failure Value}
    (h : isHalfSizeDocument result = true) : result = .ok halfSizeDocument := by
  unfold isHalfSizeDocument at h
  split at h
  · rw [Bool.and_eq_true, decide_eq_true_iff, decide_eq_true_iff] at h
    rw [h.1, h.2]
    rfl
  · cases h

theorem read_halfSizeText :
    readingSurroundings.readers.document (Content.text halfSizeText).bytes = .ok halfSizeDocument :=
  eq_of_isHalfSizeDocument (by decide +kernel)

theorem lookup_named (key name : String) (value : Value) :
    Value.lookup key [(.text name, value)] = if key = name then some value else none := by
  refine (Value.lookup_texts key [(name, value)]).trans ?_
  by_cases h : key = name
  · rw [if_pos h, h, List.lookup_cons, beq_self_eq_true]
  · rw [if_neg h, List.lookup_cons, beq_false_of_ne h]
    rfl

theorem saidAt_halfSizeDocument (place : String × String) : saidAt halfSizeDocument place =
    if place = ("decode", "half_size") then some (.flag true) else none := by
  rcases place with ⟨outer, inner⟩
  have hsection : sectionAt halfSizeDocument outer =
      if outer = "decode" then [(.text "half_size", .flag true)] else [] := by
    have hentries : (orEmpty halfSizeDocument).entries =
        [(.text "decode", .named [("half_size", .flag true)])] := rfl
    unfold sectionAt sectionValue Section.get
    rw [hentries, lookup_named]
    split_ifs <;> rfl
  show Value.lookup inner (sectionAt halfSizeDocument outer) = _
  rw [hsection]
  by_cases houter : outer = "decode"
  · rw [if_pos houter, lookup_named]
    simp [houter]
  · simp [houter, Value.lookup]

end Configuration

namespace CommandLine

open Darkroom.Configuration

variable {env : Environment} {files : Tree Content}

/-- Command lines with the same journal whose commands do the same. -/
theorem run_congr {line line' : CommandLine} {c d : Configuration}
    (hc : load env files line.config = .ok c) (hd : load env files line'.config = .ok d)
    (hlevel : c.logLevel = d.logLevel) (hfile : c.logFile = d.logFile)
    (hdebug : line.debug = line'.debug)
    (hcommand : line.command.run env c = line'.command.run env d) :
    line.run env files = line'.run env files := by
  have hwork : (line.work env).run ⟨files, [], none, []⟩ =
      (line'.work env).run ⟨files, [], none, []⟩ := by
    unfold work
    rw [run_bind, run_bind, run_setUp_of_ok hc, run_setUp_of_ok hd, hlevel, hfile, hdebug]
    generalize (Journal.start env d.logLevel d.logFile line'.debug).run files = started
    rcases started with ⟨failure | journal, opened⟩
    · -- Neither command is reached.
      rfl
    · exact congrArg (fun command : Work Bool => command.run ⟨opened, [], none, []⟩) hcommand
  rw [run_eq, run_eq, hwork]

/-- It makes no difference whether a flag is told or its key is set. Two command lines differ in the
    flags that are put among their words, and their configurations under the keys of these flags. If
    every flag that the second one lacks is said by its configuration, they do the same: they end
    the same way, ask the same of the library, and leave the same files. What the first
    configuration says under the keys does not matter, nor what the second one says where it does
    not lack the flag. -/
theorem flags_as_keys {command : Command} {flags kept : List KeyedFlag}
    {words words' more more' : List String} {config config' : Option String} {debug : Bool}
    {base base' : Path} {document document' : Value}
    (hflags : ∀ f ∈ flags, f.command = command.name)
    (hconsistent : ∀ f ∈ flags, ∀ g ∈ flags, g.key = f.key → g = f)
    (hkept : ∀ f ∈ kept, f ∈ flags)
    (hwords : parse (command.name.text :: words) = .ok ⟨config, debug, command⟩)
    (hwords' : parse (command.name.text :: words') = .ok ⟨config', debug, command⟩)
    (hmore : WithFlags command.name words flags more)
    (hmore' : WithFlags command.name words' kept more')
    (hdocument : HasDocument env files base config document)
    (hdocument' : HasDocument env files base' config' document')
    (hloads : ∃ c, load env files config = .ok c) (hloads' : ∃ d, load env files config' = .ok d)
    (hagree : AgreeExcept (flags.map KeyedFlag.key) base base' document document')
    (hsaid : ∀ f ∈ flags, f ∉ kept →
      ∃ value, saidAt document' f.key.place = some value ∧ f.IsSaidBy value) :
    ∃ line line', parse (command.name.text :: more) = .ok line ∧
      parse (command.name.text :: more') = .ok line' ∧
      line.run env files = line'.run env files := by
  rcases hloads with ⟨c, hc⟩
  rcases hloads' with ⟨d, hd⟩
  have hread := hdocument.readAt hc
  have hread' := hdocument'.readAt hd
  have hrest := hagree.rest_eq hread hread'
  have hkeptFlags : ∀ f ∈ kept, f.command = command.name := fun f hf => hflags f (hkept f hf)
  have hheld : ∀ f ∈ flags, f ∉ kept → d.valueAt f.key = f.value := by
    intro f hf hlacks
    rcases hsaid f hf hlacks with ⟨value, hvalue, hsays⟩
    have hcast := hread'.cast_saidAt f.key
    rw [hvalue] at hcast
    exact ok_unique rfl hcast hsays.cast_eq
  have hsame : c.tellAll flags = d.tellAll kept :=
    tellAll_eq hconsistent hkept hrest
      (fun key hkey => hagree.valueAt_eq hread hread' (by simpa using hkey)) hheld
  have hlevel : c.rest.logLevel = d.rest.logLevel := by rw [hrest]
  have hfile : c.rest.logFile = d.rest.logFile := by rw [hrest]
  refine ⟨_, _, parse_withFlags hflags hmore hwords, parse_withFlags hkeptFlags hmore' hwords',
    run_congr hc hd hlevel hfile rfl ?_⟩
  calc (command.tellAll flags).run env c = command.run env (c.tellAll flags) :=
        Command.run_tellAll hflags
    _ = command.run env (d.tellAll kept) := by rw [hsame]
    _ = (command.tellAll kept).run env d := (Command.run_tellAll hkeptFlags).symm

/-- A switch among the words does what its key does in a file that another command line names. -/
theorem flags_as_keys_halfSize :
    ∃ line line', parse ["render", "/a.dng", "--half-size", "--out", "/b.png"] = .ok line ∧
      parse ["render", "/a.dng", "--out", "/b.png", "--config", "/a.yaml"] = .ok line' ∧
      line.run readingSurroundings (documentFile halfSizeText) =
        line'.run readingSurroundings (documentFile halfSizeText) := by
  let command : Command := .render "/a.dng" "/b.png" none none false none
  have hwords : parse (command.name.text :: ["/a.dng", "--out", "/b.png"]) =
      .ok ⟨none, false, command⟩ := by
    show parse ["render", "/a.dng", "--out", "/b.png"] = _
    rfl
  have hwords' : parse (command.name.text :: ["/a.dng", "--out", "/b.png", "--config", "/a.yaml"]) =
      .ok ⟨some "/a.yaml", false, command⟩ := by
    show parse ["render", "/a.dng", "--out", "/b.png", "--config", "/a.yaml"] = _
    rfl
  have hmore : WithFlags command.name ["/a.dng", "--out", "/b.png"] [.halfSize]
      (["/a.dng"] ++ (["--half-size"] ++ ["--out", "/b.png"])) :=
    .more .none ⟨by decide, Or.inr (by decide), _, _, rfl, rfl, rfl⟩ (.alone rfl rfl)
  have hdocument : HasDocument readingSurroundings (documentFile halfSizeText) ⟨1, []⟩ none .null :=
    rfl
  have hdocument' : HasDocument readingSurroundings (documentFile halfSizeText) ⟨1, []⟩
      (some "/a.yaml") halfSizeDocument :=
    ⟨rfl, _, _, userPath_documentFile, rfl, read_documentFile halfSizeText, read_halfSizeText⟩
  have hagree : AgreeExcept [.halfSize] ⟨1, []⟩ ⟨1, []⟩ .null halfSizeDocument := by
    refine ⟨rfl, rfl, fun place hplace => ?_⟩
    have hother : place ≠ ("decode", "half_size") := hplace .halfSize List.mem_cons_self
    rw [saidAt_halfSizeDocument, if_neg hother]
    rfl
  have hsaid : ∀ f ∈ [KeyedFlag.halfSize], f ∉ [] →
      ∃ value, saidAt halfSizeDocument f.key.place = some value ∧ f.IsSaidBy value := by
    intro f hf _
    cases List.mem_singleton.mp hf
    exact ⟨.flag true, saidAt_halfSizeDocument ("decode", "half_size"), rfl⟩
  have hkept : ∀ f ∈ ([] : List KeyedFlag), f ∈ [KeyedFlag.halfSize] := List.forall_mem_nil _
  have hflags : ∀ f ∈ [KeyedFlag.halfSize], f.command = command.name := by decide
  exact flags_as_keys hflags (by decide) hkept hwords hwords' hmore .none hdocument hdocument'
    ⟨_, rfl⟩ (exists_load (by decide +kernel)) hagree hsaid

end CommandLine

end Darkroom
