import Darkroom.Proofs.Settings.Parsing
import Mathlib.Tactic.FinCases

/-!
# Sections with Some of the Settings

A section that names some of the settings sets these and nothing else.

What is read for a name depends only on what is said under this name. So settings that are read
from a section with parts of two others are made of parts of what is read from these, and it is
enough to look at a section that says everything and at one that says nothing.

Only the name of the demosaicing algorithm is not kept as it is said, because reading puts it in
capitals. The name of an algorithm is its own form in capitals, so nothing more is lost when such a
name is looked up or read again.

## Main definitions

* `DecodeSettings.said`: What settings say under a name.
* `DecodeSettings.excerpt`: A section that says what settings say under some names.
* `DecodeSettings.inCapitals`: Settings as reading gives them back.
* `DecodeSettings.laidOver`: Settings with some names, laid over others.

## Theorems

* `DecodeSettings.ReadFrom.laidOver`: What is read from parts of two sections.
* `DecodeSettings.Legal.laidOver`: The constraints look at one setting at a time.
* `DecodeSettings.readFrom_excerpt_keys`: What is read from a section that says everything.
* `DecodeSettings.said_laidOver`: Exactly the chosen names are set.
* `DecodeSettings.parse_excerpt`: What is read from a section with some of the settings.
-/

namespace Darkroom

/-- The names of the algorithms are in capitals. -/
theorem Demosaic.upperCase_name (algorithm : Demosaic) :
    upperCase algorithm.name = algorithm.name := by
  cases algorithm <;> decide

/-- What is found under a name has this name. -/
theorem Demosaic.name_of_ofName? {name : String} {algorithm : Demosaic}
    (h : Demosaic.ofName? name = some algorithm) : algorithm.name = name := by
  simpa using List.find?_some h

namespace DecodeSettings

/-- What settings say under a name. -/
def said (s : DecodeSettings Declared) (name : String) : Value :=
  (s.toGiven.entries.lookup name).getD .null

/-- A section that says under some names what settings say. -/
def excerpt (s : DecodeSettings Declared) (names : List String) : Section :=
  names.map fun name => (.text name, s.said name)

/-- Settings as reading gives them back: the name of the demosaicing algorithm is in capitals. -/
def inCapitals (s : DecodeSettings Declared) : DecodeSettings Declared :=
  { s with demosaic := upperCase s.demosaic }

/-- Settings with some names, laid over others. -/
def laidOver (s t : DecodeSettings Declared) (names : List String) : DecodeSettings Declared where
  useCameraWb := if "use_camera_wb" ∈ names then s.useCameraWb else t.useCameraWb
  useAutoWb := if "use_auto_wb" ∈ names then s.useAutoWb else t.useAutoWb
  userWb := if "user_wb" ∈ names then s.userWb else t.userWb
  outputColor := if "output_color" ∈ names then s.outputColor else t.outputColor
  outputBps := if "output_bps" ∈ names then s.outputBps else t.outputBps
  bright := if "bright" ∈ names then s.bright else t.bright
  demosaic := if "demosaic" ∈ names then s.demosaic else t.demosaic
  halfSize := if "half_size" ∈ names then s.halfSize else t.halfSize
  highlightMode := if "highlight_mode" ∈ names then s.highlightMode else t.highlightMode
  gamma := if "gamma" ∈ names then s.gamma else t.gamma
  noiseThreshold := if "noise_threshold" ∈ names then s.noiseThreshold else t.noiseThreshold
  medianPasses := if "median_passes" ∈ names then s.medianPasses else t.medianPasses
  expShift := if "exp_shift" ∈ names then s.expShift else t.expShift
  expPreserveHighlights :=
    if "exp_preserve_highlights" ∈ names then s.expPreserveHighlights else t.expPreserveHighlights
  noAutoBright := if "no_auto_bright" ∈ names then s.noAutoBright else t.noAutoBright
  autoBrightThreshold :=
    if "auto_bright_threshold" ∈ names then s.autoBrightThreshold else t.autoBrightThreshold
  fourColorRgb := if "four_color_rgb" ∈ names then s.fourColorRgb else t.fourColorRgb
  dcbIterations := if "dcb_iterations" ∈ names then s.dcbIterations else t.dcbIterations
  dcbEnhance := if "dcb_enhance" ∈ names then s.dcbEnhance else t.dcbEnhance
  userBlack := if "user_black" ∈ names then s.userBlack else t.userBlack
  chromaticAberration :=
    if "chromatic_aberration" ∈ names then s.chromaticAberration else t.chromaticAberration
  userFlip := if "user_flip" ∈ names then s.userFlip else t.userFlip
  shotSelect := if "shot_select" ∈ names then s.shotSelect else t.shotSelect

/-! ### Parts of two sections -/

/-- A section says under some names what one section says, and under all others what another
    says. -/
structure MadeOf (mixed first second : Section) (names : List String) : Prop where
  chosen : ∀ key ∈ names, Value.lookup key mixed = Value.lookup key first
  others : ∀ key ∉ names, Value.lookup key mixed = Value.lookup key second

section

variable {mixed first second : Section} {names : List String} {s t : DecodeSettings Declared}

/-! What is read under a name comes from the section that the name is chosen from. -/

namespace MadeOf

variable (h : MadeOf mixed first second names) {key label : String}

include h

theorem cast {α : Type} (read : Section → Except Failure α) {a b : α}
    (hlocal : ∀ {other : Section}, Value.lookup key mixed = Value.lookup key other →
      read mixed = read other)
    (hfirst : read first = .ok a) (hsecond : read second = .ok b) :
    read mixed = .ok (if key ∈ names then a else b) := by
  by_cases hkey : key ∈ names
  · rw [if_pos hkey, hlocal (h.chosen key hkey), hfirst]
  · rw [if_neg hkey, hlocal (h.others key hkey), hsecond]

theorem flag {default a b : Bool} (hfirst : a = Section.flag first key default)
    (hsecond : b = Section.flag second key default) :
    (if key ∈ names then a else b) = Section.flag mixed key default := by
  by_cases hkey : key ∈ names
  · rw [if_pos hkey, Section.flag_congr (h.chosen key hkey), hfirst]
  · rw [if_neg hkey, Section.flag_congr (h.others key hkey), hsecond]

theorem text {default a b : String} (hfirst : Section.text first key default = .ok a)
    (hsecond : Section.text second key default = .ok b) :
    Section.text mixed key default = .ok (if key ∈ names then a else b) :=
  h.cast (Section.text · key default) (fun hkey => Section.text_congr hkey _) hfirst hsecond

theorem whole {default a b : Int} (hfirst : Section.whole first key default = .ok a)
    (hsecond : Section.whole second key default = .ok b) :
    Section.whole mixed key default = .ok (if key ∈ names then a else b) :=
  h.cast (Section.whole · key default) (fun hkey => Section.whole_congr hkey _) hfirst hsecond

theorem real {default a b : Double} (hfirst : Section.real first key default = .ok a)
    (hsecond : Section.real second key default = .ok b) :
    Section.real mixed key default = .ok (if key ∈ names then a else b) :=
  h.cast (Section.real · key default) (fun hkey => Section.real_congr hkey _) hfirst hsecond

theorem option {α : Type} {cast : Value → Except Failure α} {a b : Option α}
    (hfirst : Section.option first cast key = .ok a)
    (hsecond : Section.option second cast key = .ok b) :
    Section.option mixed cast key = .ok (if key ∈ names then a else b) :=
  h.cast (Section.option · cast key) (fun hkey => Section.option_congr hkey _) hfirst hsecond

theorem pair {default : Value} {a b : Option (Double × Double)}
    (hfirst : Section.pair first label key default = .ok a)
    (hsecond : Section.pair second label key default = .ok b) :
    Section.pair mixed label key default = .ok (if key ∈ names then a else b) :=
  h.cast (Section.pair · label key default) (fun hkey => Section.pair_congr hkey _ _) hfirst hsecond

theorem quad {default : Value} {a b : Option (Double × Double × Double × Double)}
    (hfirst : Section.quad first label key default = .ok a)
    (hsecond : Section.quad second label key default = .ok b) :
    Section.quad mixed label key default = .ok (if key ∈ names then a else b) :=
  h.cast (Section.quad · label key default) (fun hkey => Section.quad_congr hkey _ _) hfirst hsecond

end MadeOf

/-- Settings that are read from parts of two sections are parts of what is read from these. -/
theorem ReadFrom.laidOver (hs : ReadFrom first s) (ht : ReadFrom second t)
    (h : MadeOf mixed first second names) : ReadFrom mixed (s.laidOver t names) where
  useCameraWb := h.flag hs.useCameraWb ht.useCameraWb
  useAutoWb := h.flag hs.useAutoWb ht.useAutoWb
  userWb := h.quad hs.userWb ht.userWb
  outputColor := h.text hs.outputColor ht.outputColor
  outputBps := h.whole hs.outputBps ht.outputBps
  bright := h.real hs.bright ht.bright
  demosaic := by
    rcases hs.demosaic with ⟨name, hname, hs⟩
    rcases ht.demosaic with ⟨name', hname', ht⟩
    refine ⟨_, h.text hname hname', ?_⟩
    rw [apply_ite upperCase, ← hs, ← ht]
    rfl
  halfSize := h.flag hs.halfSize ht.halfSize
  highlightMode := h.whole hs.highlightMode ht.highlightMode
  gamma := h.pair hs.gamma ht.gamma
  noiseThreshold := h.option hs.noiseThreshold ht.noiseThreshold
  medianPasses := h.whole hs.medianPasses ht.medianPasses
  expShift := h.option hs.expShift ht.expShift
  expPreserveHighlights := h.real hs.expPreserveHighlights ht.expPreserveHighlights
  noAutoBright := h.flag hs.noAutoBright ht.noAutoBright
  autoBrightThreshold := h.option hs.autoBrightThreshold ht.autoBrightThreshold
  fourColorRgb := h.flag hs.fourColorRgb ht.fourColorRgb
  dcbIterations := h.whole hs.dcbIterations ht.dcbIterations
  dcbEnhance := h.flag hs.dcbEnhance ht.dcbEnhance
  userBlack := h.option hs.userBlack ht.userBlack
  chromaticAberration := h.pair hs.chromaticAberration ht.chromaticAberration
  userFlip := h.option hs.userFlip ht.userFlip
  shotSelect := h.whole hs.shotSelect ht.shotSelect

/-- The constraints look at one setting at a time. -/
theorem Legal.laidOver (hs : s.Legal) (ht : t.Legal) : (s.laidOver t names).Legal where
  demosaic := by
    dsimp only [DecodeSettings.laidOver]
    split
    · exact hs.demosaic
    · exact ht.demosaic
  outputColor := by
    dsimp only [DecodeSettings.laidOver]
    split
    · exact hs.outputColor
    · exact ht.outputColor
  outputBps := by
    dsimp only [DecodeSettings.laidOver]
    split
    · exact hs.outputBps
    · exact ht.outputBps
  highlightMode := by
    dsimp only [DecodeSettings.laidOver]
    split
    · exact hs.highlightMode
    · exact ht.highlightMode
  userFlip := by
    dsimp only [DecodeSettings.laidOver]
    split
    · exact hs.userFlip
    · exact ht.userFlip

end

/-! ### Sections that say everything or nothing -/

variable {s : DecodeSettings Declared}

/-- What is found in capitals is found again. -/
theorem Legal.inCapitals (h : s.Legal) : s.inCapitals.Legal where
  demosaic := by
    rcases h.demosaic with ⟨algorithm, halgorithm⟩
    refine ⟨algorithm, ?_⟩
    show Demosaic.ofName? (upperCase (upperCase s.demosaic)) = some algorithm
    rw [← Demosaic.name_of_ofName? halgorithm, Demosaic.upperCase_name,
      Demosaic.name_of_ofName? halgorithm]
    exact halgorithm
  outputColor := h.outputColor
  outputBps := h.outputBps
  highlightMode := h.highlightMode
  userFlip := h.userFlip

theorem legal_standard : standard.Legal := check_toGiven_iff.mp rfl

/-- A section that says nothing leaves everything as it is. -/
theorem readFrom_nil : ReadFrom [] standard where
  useCameraWb := rfl
  useAutoWb := rfl
  userWb := rfl
  outputColor := rfl
  outputBps := rfl
  bright := rfl
  demosaic := ⟨_, rfl, rfl⟩
  halfSize := rfl
  highlightMode := rfl
  gamma := rfl
  noiseThreshold := rfl
  medianPasses := rfl
  expShift := rfl
  expPreserveHighlights := rfl
  noAutoBright := rfl
  autoBrightThreshold := rfl
  fourColorRgb := rfl
  dcbIterations := rfl
  dcbEnhance := rfl
  userBlack := rfl
  chromaticAberration := rfl
  userFlip := rfl
  shotSelect := rfl

/-! What is said of something that may be missing is read back. -/

section

variable {entries : Section} {key label : String} {default : Value}

theorem wholeOption_of_get {n : Option Int}
    (h : Section.get entries key .null = Declared.toGiven .wholeOption n) :
    Section.option entries Value.toWhole key = .ok n := by
  unfold Section.option
  rw [h]
  cases n <;> rfl

theorem realOption_of_get {x : Option Double}
    (h : Section.get entries key .null = Declared.toGiven .realOption x) :
    Section.option entries Value.toReal key = .ok x := by
  unfold Section.option
  rw [h]
  cases x <;> rfl

theorem pair_of_get {pair : Option (Double × Double)}
    (h : Section.get entries key default = Declared.toGiven .pairOption pair) :
    Section.pair entries label key default = .ok pair := by
  unfold Section.pair
  rw [h]
  cases pair <;> rfl

theorem quad_of_get {quad : Option (Double × Double × Double × Double)}
    (h : Section.get entries key default = Declared.toGiven .quadOption quad) :
    Section.quad entries label key default = .ok quad := by
  unfold Section.quad
  rw [h]
  cases quad <;> rfl

end

/-- A section that says everything is read back. -/
theorem readFrom_excerpt_keys : ReadFrom (s.excerpt keys) s.inCapitals where
  useCameraWb := rfl
  useAutoWb := rfl
  userWb := quad_of_get rfl
  outputColor := rfl
  outputBps := rfl
  bright := rfl
  demosaic := ⟨s.demosaic, rfl, rfl⟩
  halfSize := rfl
  highlightMode := rfl
  gamma := pair_of_get rfl
  noiseThreshold := realOption_of_get rfl
  medianPasses := rfl
  expShift := realOption_of_get rfl
  expPreserveHighlights := rfl
  noAutoBright := rfl
  autoBrightThreshold := realOption_of_get rfl
  fourColorRgb := rfl
  dcbIterations := rfl
  dcbEnhance := rfl
  userBlack := wholeOption_of_get rfl
  chromaticAberration := pair_of_get rfl
  userFlip := wholeOption_of_get rfl
  shotSelect := rfl

theorem lookup_excerpt (key : String) (names : List String) :
    Value.lookup key (s.excerpt names) = if key ∈ names then some (s.said key) else none := by
  have hnamed : Value.lookup key (s.excerpt names) =
      (names.map fun name => (name, s.said name)).lookup key := by
    rw [← Value.lookup_texts, List.map_map]
    rfl
  rw [hnamed]
  by_cases hkey : key ∈ names
  · rw [if_pos hkey, List.lookup_graph _ hkey]
  · rw [if_neg hkey, List.lookup_eq_none_iff]
    rintro entry hentry
    rcases List.mem_map.mp hentry with ⟨name, hname, rfl⟩
    exact bne_iff_ne.mpr fun h => hkey (h ▸ hname)

theorem madeOf_excerpt {names : List String} (h : ∀ name ∈ names, name ∈ keys) :
    MadeOf (s.excerpt names) (s.excerpt keys) [] names where
  chosen key hkey := by rw [lookup_excerpt, lookup_excerpt, if_pos hkey, if_pos (h key hkey)]
  others key hkey := by
    rw [lookup_excerpt, if_neg hkey]
    rfl

theorem hasOnly_excerpt {names : List String} (h : ∀ name ∈ names, name ∈ keys) :
    (Value.table (s.excerpt names)).HasOnly keys := by
  refine ⟨(s.excerpt names).map Prod.fst, rfl, fun part hpart => ?_⟩
  rw [excerpt, List.map_map] at hpart
  rcases List.mem_map.mp hpart with ⟨name, hname, rfl⟩
  exact ⟨name, h name hname, rfl⟩

/-! ### What is read -/

/-- Every setting is of some kind. -/
theorem exists_kind : ∀ key ∈ keys, ∃ kind ∈ [SettingKind.flag, .whole, .real, .text, .wholeOption,
    .realOption, .pairOption, .quadOption], key ∈ namesOf kind := by
  decide

/-- Exactly the chosen names are set. -/
theorem said_laidOver (s t : DecodeSettings Declared) (names : List String) :
    ∀ key ∈ keys,
      (s.laidOver t names).said key = if key ∈ names then s.said key else t.said key := by
  intro key hkey
  rcases exists_kind key hkey with ⟨kind, -, hname⟩
  -- Within one kind all names are read in the same way.
  cases kind with
  | flag => fin_cases hname <;> exact apply_ite (Declared.toGiven .flag) _ _ _
  | whole => fin_cases hname <;> exact apply_ite (Declared.toGiven .whole) _ _ _
  | real => fin_cases hname <;> exact apply_ite (Declared.toGiven .real) _ _ _
  | text => fin_cases hname <;> exact apply_ite (Declared.toGiven .text) _ _ _
  | wholeOption => fin_cases hname <;> exact apply_ite (Declared.toGiven .wholeOption) _ _ _
  | realOption => fin_cases hname <;> exact apply_ite (Declared.toGiven .realOption) _ _ _
  | pairOption => fin_cases hname <;> exact apply_ite (Declared.toGiven .pairOption) _ _ _
  | quadOption =>
    fin_cases hname
    exact apply_ite (Declared.toGiven .quadOption) _ _ _

/-- All names set everything. -/
theorem laidOver_of_subset {t : DecodeSettings Declared} {names : List String}
    (h : ∀ key ∈ keys, key ∈ names) : s.laidOver t names = s := by
  have hnamed {α : Type} (key : String) (hkey : key ∈ keys) (a b : α) :
      (if key ∈ names then a else b) = a := if_pos (h key hkey)
  cases s
  unfold DecodeSettings.laidOver
  congr <;> exact hnamed _ (by decide) _ _

/-- What is read from a section with some of the settings: these settings, with the name of the
    demosaicing algorithm in capitals, and the standard ones for all other names. With every name it
    is all of the settings. -/
theorem parse_excerpt (s : DecodeSettings Declared) (names : List String)
    (h : s.toGiven.check = .ok ()) (hnames : ∀ name ∈ names, name ∈ keys) :
    parse (.table (s.excerpt names)) = .ok (s.inCapitals.laidOver standard names) ∧
    (∀ key ∈ keys, (s.inCapitals.laidOver standard names).said key =
      if key ∈ names then s.inCapitals.said key else standard.said key) ∧
    ((∀ key ∈ keys, key ∈ names) → parse (.table (s.excerpt names)) = .ok s.inCapitals) := by
  have hlegal := (check_toGiven_iff.mp h).inCapitals
  have hparse : parse (.table (s.excerpt names)) = .ok (s.inCapitals.laidOver standard names) :=
    parse_eq_ok_iff.mpr ⟨hasOnly_excerpt hnames, s.excerpt names, rfl,
      readFrom_excerpt_keys.laidOver readFrom_nil (madeOf_excerpt hnames),
      hlegal.laidOver legal_standard⟩
  refine ⟨hparse, said_laidOver s.inCapitals standard names, fun hall => ?_⟩
  rw [hparse, laidOver_of_subset hall]

/-- Settings with a turn, an exposure shift and an algorithm in small letters. -/
def turned : DecodeSettings Declared :=
  { standard with demosaic := "dcb", userFlip := some (6 : Int), expShift := some (2 : Double) }

/-- Where a section names the turn and the algorithm, the shift is not read. -/
theorem parse_excerpt_turned : turned.toGiven.check = .ok () ∧
    (∀ name ∈ ["user_flip", "demosaic"], name ∈ keys) ∧
    parse (.table [(.text "user_flip", .whole 6), (.text "demosaic", .text "dcb")]) =
      .ok { standard with demosaic := "DCB", userFlip := some (6 : Int) } := by
  have hcheck : turned.toGiven.check = .ok () := rfl
  have hnames : ∀ name ∈ ["user_flip", "demosaic"], name ∈ keys := by decide
  exact ⟨hcheck, hnames, (parse_excerpt turned ["user_flip", "demosaic"] hcheck hnames).1⟩

end DecodeSettings

end Darkroom
