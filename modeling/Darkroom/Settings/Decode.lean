import Darkroom.Settings.Section
import Darkroom.Text.LetterCase

/-!
# Decoding settings

How a RAW file is developed: white balance, colour space, brightness, the demosaicing algorithm
and the rest of the 23 settings. They are passed to every call that develops a file and are never
changed in between.

Settings that were read from a section have the types that their kinds declare. A caller may also
hand over settings as any values; both are one structure, `DecodeSettings`, over different readings
of `SettingKind`. Checking, and the options for the RAW library, are defined on settings of any
values, and hence for both.

## Main definitions

* `DecodeSettings`: The settings, over a reading of their kinds.
* `Declared`, `Given`: The values of the declared types, and any values.
* `DecodeSettings.parse`: The settings of a section.
* `DecodeSettings.check`: The constraints that settings must meet.
* `DecodeSettings.options`: The named options for the RAW library.
-/

namespace Darkroom

/-- The demosaicing algorithms. -/
inductive Demosaic where
  | linear
  | vng
  | ppg
  | ahd
  | dcb
  | dht
  | aahd
  deriving DecidableEq, Repr

namespace Demosaic

def all : List Demosaic := [linear, vng, ppg, ahd, dcb, dht, aahd]

def name : Demosaic → String
  | linear => "LINEAR"
  | vng => "VNG"
  | ppg => "PPG"
  | ahd => "AHD"
  | dcb => "DCB"
  | dht => "DHT"
  | aahd => "AAHD"

/-- The algorithm of a name in capitals. -/
def ofName? (name : String) : Option Demosaic := all.find? (·.name = name)

end Demosaic

/-- The colour spaces of developed pictures. -/
inductive ColorSpace where
  | raw
  | sRGB
  | adobe
  | wide
  | proPhoto
  | xyz
  | aces
  | p3d65
  | rec2020
  deriving DecidableEq, Repr

namespace ColorSpace

def all : List ColorSpace := [raw, sRGB, adobe, wide, proPhoto, xyz, aces, p3d65, rec2020]

def name : ColorSpace → String
  | raw => "raw"
  | sRGB => "sRGB"
  | adobe => "Adobe"
  | wide => "Wide"
  | proPhoto => "ProPhoto"
  | xyz => "XYZ"
  | aces => "ACES"
  | p3d65 => "P3D65"
  | rec2020 => "Rec2020"

/-- The colour space of a name. -/
def ofName? (name : String) : Option ColorSpace := all.find? (·.name = name)

end ColorSpace

/-- What a setting holds. -/
inductive SettingKind where
  | flag
  | whole
  | real
  | text
  | wholeOption
  | realOption
  | pairOption
  | quadOption
  deriving DecidableEq, Repr

/-- The values of a kind. -/
def Declared : SettingKind → Type
  | .flag => Bool
  | .whole => Int
  | .real => Double
  | .text => String
  | .wholeOption => Option Int
  | .realOption => Option Double
  | .pairOption => Option (Double × Double)
  | .quadOption => Option (Double × Double × Double × Double)

/-- Any value, whatever the kind. -/
abbrev Given (_ : SettingKind) : Type := Value

/-- A value of a kind as a value. -/
def Declared.toGiven : (kind : SettingKind) → Declared kind → Value
  | .flag, (b : Bool) => .flag b
  | .whole, (n : Int) => .whole n
  | .real, (x : Double) => .real x
  | .text, (s : String) => .text s
  | .wholeOption, none => .null
  | .wholeOption, some (n : Int) => .whole n
  | .realOption, none => .null
  | .realOption, some (x : Double) => .real x
  | .pairOption, none => .null
  | .pairOption, some (a, b) => .tuple [.real a, .real b]
  | .quadOption, none => .null
  | .quadOption, some (a, b, c, d) => .tuple [.real a, .real b, .real c, .real d]

/-- The settings for developing a RAW file. -/
structure DecodeSettings (F : SettingKind → Type) where
  useCameraWb : F .flag
  useAutoWb : F .flag
  userWb : F .quadOption
  outputColor : F .text
  outputBps : F .whole
  bright : F .real
  demosaic : F .text
  halfSize : F .flag
  highlightMode : F .whole
  gamma : F .pairOption
  noiseThreshold : F .realOption
  medianPasses : F .whole
  expShift : F .realOption
  expPreserveHighlights : F .real
  noAutoBright : F .flag
  autoBrightThreshold : F .realOption
  fourColorRgb : F .flag
  dcbIterations : F .whole
  dcbEnhance : F .flag
  userBlack : F .wholeOption
  chromaticAberration : F .pairOption
  userFlip : F .wholeOption
  shotSelect : F .whole

/-- An option for the RAW library. -/
inductive OptionValue where
  | plain (value : Value)
  | colorSpace (space : ColorSpace)
  | demosaic (algorithm : Demosaic)
  deriving BEq

/-- Options by name, in the order in which they are passed. -/
abbrev Options := List (String × OptionValue)

/-- The gamma curve of sRGB pictures: its power, and the slope of its toe. -/
def standardGamma : Double × Double :=
  (Binary.ofRatio false 24 10 0, Binary.ofRatio false 1292 100 0)

namespace DecodeSettings

/-- Settings with every value read in another way. -/
def map {F G : SettingKind → Type} (f : (kind : SettingKind) → F kind → G kind)
    (s : DecodeSettings F) : DecodeSettings G where
  useCameraWb := f _ s.useCameraWb
  useAutoWb := f _ s.useAutoWb
  userWb := f _ s.userWb
  outputColor := f _ s.outputColor
  outputBps := f _ s.outputBps
  bright := f _ s.bright
  demosaic := f _ s.demosaic
  halfSize := f _ s.halfSize
  highlightMode := f _ s.highlightMode
  gamma := f _ s.gamma
  noiseThreshold := f _ s.noiseThreshold
  medianPasses := f _ s.medianPasses
  expShift := f _ s.expShift
  expPreserveHighlights := f _ s.expPreserveHighlights
  noAutoBright := f _ s.noAutoBright
  autoBrightThreshold := f _ s.autoBrightThreshold
  fourColorRgb := f _ s.fourColorRgb
  dcbIterations := f _ s.dcbIterations
  dcbEnhance := f _ s.dcbEnhance
  userBlack := f _ s.userBlack
  chromaticAberration := f _ s.chromaticAberration
  userFlip := f _ s.userFlip
  shotSelect := f _ s.shotSelect

/-- Settings of the declared types as settings of any values. -/
def toGiven (s : DecodeSettings Declared) : DecodeSettings Given := s.map Declared.toGiven

/-- The settings where nothing else is said. -/
def standard : DecodeSettings Declared where
  useCameraWb := true
  useAutoWb := false
  userWb := none
  outputColor := "sRGB"
  outputBps := (8 : Int)
  bright := (1 : Double)
  demosaic := "AHD"
  halfSize := false
  highlightMode := (0 : Int)
  gamma := some standardGamma
  noiseThreshold := none
  medianPasses := (0 : Int)
  expShift := none
  expPreserveHighlights := (0 : Double)
  noAutoBright := false
  autoBrightThreshold := none
  fourColorRgb := false
  dcbIterations := (0 : Int)
  dcbEnhance := false
  userBlack := none
  chromaticAberration := none
  userFlip := none
  shotSelect := (0 : Int)

/-- The settings by name. -/
def entries (s : DecodeSettings Given) : List (String × Value) := [
  ("use_camera_wb", s.useCameraWb), ("use_auto_wb", s.useAutoWb), ("user_wb", s.userWb),
  ("output_color", s.outputColor), ("output_bps", s.outputBps), ("bright", s.bright),
  ("demosaic", s.demosaic), ("half_size", s.halfSize), ("highlight_mode", s.highlightMode),
  ("gamma", s.gamma), ("noise_threshold", s.noiseThreshold), ("median_passes", s.medianPasses),
  ("exp_shift", s.expShift), ("exp_preserve_highlights", s.expPreserveHighlights),
  ("no_auto_bright", s.noAutoBright), ("auto_bright_threshold", s.autoBrightThreshold),
  ("four_color_rgb", s.fourColorRgb), ("dcb_iterations", s.dcbIterations),
  ("dcb_enhance", s.dcbEnhance), ("user_black", s.userBlack),
  ("chromatic_aberration", s.chromaticAberration), ("user_flip", s.userFlip),
  ("shot_select", s.shotSelect)]

/-- The names of the settings. -/
def keys : List String := standard.toGiven.entries.map Prod.fst

/-- Settings from entries, where a missing name keeps its standard value. -/
def ofEntries (entries : Section) : DecodeSettings Given where
  useCameraWb := Section.get entries "use_camera_wb" standard.toGiven.useCameraWb
  useAutoWb := Section.get entries "use_auto_wb" standard.toGiven.useAutoWb
  userWb := Section.get entries "user_wb" standard.toGiven.userWb
  outputColor := Section.get entries "output_color" standard.toGiven.outputColor
  outputBps := Section.get entries "output_bps" standard.toGiven.outputBps
  bright := Section.get entries "bright" standard.toGiven.bright
  demosaic := Section.get entries "demosaic" standard.toGiven.demosaic
  halfSize := Section.get entries "half_size" standard.toGiven.halfSize
  highlightMode := Section.get entries "highlight_mode" standard.toGiven.highlightMode
  gamma := Section.get entries "gamma" standard.toGiven.gamma
  noiseThreshold := Section.get entries "noise_threshold" standard.toGiven.noiseThreshold
  medianPasses := Section.get entries "median_passes" standard.toGiven.medianPasses
  expShift := Section.get entries "exp_shift" standard.toGiven.expShift
  expPreserveHighlights :=
    Section.get entries "exp_preserve_highlights" standard.toGiven.expPreserveHighlights
  noAutoBright := Section.get entries "no_auto_bright" standard.toGiven.noAutoBright
  autoBrightThreshold :=
    Section.get entries "auto_bright_threshold" standard.toGiven.autoBrightThreshold
  fourColorRgb := Section.get entries "four_color_rgb" standard.toGiven.fourColorRgb
  dcbIterations := Section.get entries "dcb_iterations" standard.toGiven.dcbIterations
  dcbEnhance := Section.get entries "dcb_enhance" standard.toGiven.dcbEnhance
  userBlack := Section.get entries "user_black" standard.toGiven.userBlack
  chromaticAberration :=
    Section.get entries "chromatic_aberration" standard.toGiven.chromaticAberration
  userFlip := Section.get entries "user_flip" standard.toGiven.userFlip
  shotSelect := Section.get entries "shot_select" standard.toGiven.shotSelect

/-- The demosaicing algorithm, in any letter case. -/
def algorithm (s : DecodeSettings Given) : Except Failure Demosaic :=
  match s.demosaic with
  | .text name => match Demosaic.ofName? (upperCase name) with
    | some algorithm => .ok algorithm
    | none => .error (.unknownDemosaic name)
  | _ => .error .wrongAttribute

/-- The colour space. -/
def space (s : DecodeSettings Given) : Except Failure ColorSpace :=
  let found := match s.outputColor with
    | .text name => ColorSpace.ofName? name
    | _ => none
  match found with
  | some space => .ok space
  | none => do .error (.unknownColorSpace (← Value.asText s.outputColor))

/-- The constraints that settings must meet, in the order in which a violation is reported. -/
def check (s : DecodeSettings Given) : Except Failure Unit := do
  let _ ← s.algorithm
  let _ ← s.space
  if !Value.isOneOf s.outputBps [8, 16] then .error .outputDepth
  else
    let mode ← Value.toWhole s.highlightMode
    if mode < 0 || 9 < mode then .error .highlightMode
    else
      match s.userFlip with
      | .null => .ok ()
      | flip => if Value.isOneOf flip [0, 3, 5, 6] then .ok () else .error .userFlip

/-- Settings that a caller names, as any values. -/
def ofGiven (entries : Section) : Except Failure (DecodeSettings Given) :=
  if entries.any fun entry => match entry.1 with
    | .text s => !keys.contains s
    | _ => true then .error .wrongType
  else
    let s := ofEntries entries
    do s.check; return s

/-- The settings of a section. Unknown names are refused first; then every value is cast in turn,
and last the constraints are checked. -/
def parse (raw : Value) : Except Failure (DecodeSettings Declared) := do
  checkKeys "decode" keys raw
  let entries ← sectionEntries raw
  let userWb ← entries.quad "decode.user_wb" "user_wb" .null
  let outputColor ← entries.text "output_color" standard.outputColor
  let outputBps ← entries.whole "output_bps" standard.outputBps
  let bright ← entries.real "bright" standard.bright
  let demosaic ← entries.text "demosaic" standard.demosaic
  let highlightMode ← entries.whole "highlight_mode" standard.highlightMode
  let gamma ← entries.pair "decode.gamma" "gamma"
    (.items [.real standardGamma.1, .real standardGamma.2])
  let noiseThreshold ← entries.option Value.toReal "noise_threshold"
  let medianPasses ← entries.whole "median_passes" standard.medianPasses
  let expShift ← entries.option Value.toReal "exp_shift"
  let expPreserveHighlights ←
    entries.real "exp_preserve_highlights" standard.expPreserveHighlights
  let autoBrightThreshold ← entries.option Value.toReal "auto_bright_threshold"
  let dcbIterations ← entries.whole "dcb_iterations" standard.dcbIterations
  let userBlack ← entries.option Value.toWhole "user_black"
  let chromaticAberration ← entries.pair "decode.chromatic_aberration" "chromatic_aberration" .null
  let userFlip ← entries.option Value.toWhole "user_flip"
  let shotSelect ← entries.whole "shot_select" standard.shotSelect
  let settings : DecodeSettings Declared := {
    useCameraWb := entries.flag "use_camera_wb" standard.useCameraWb
    useAutoWb := entries.flag "use_auto_wb" standard.useAutoWb
    userWb, outputColor, outputBps, bright
    demosaic := upperCase demosaic
    halfSize := entries.flag "half_size" standard.halfSize
    highlightMode, gamma, noiseThreshold, medianPasses, expShift, expPreserveHighlights
    noAutoBright := entries.flag "no_auto_bright" standard.noAutoBright
    autoBrightThreshold
    fourColorRgb := entries.flag "four_color_rgb" standard.fourColorRgb
    dcbIterations
    dcbEnhance := entries.flag "dcb_enhance" standard.dcbEnhance
    userBlack, chromaticAberration, userFlip, shotSelect }
  settings.toGiven.check
  return settings

/-- An option that is passed only when it has a value. -/
def optional (name : String) (value : Value) : Options :=
  match value with
  | .null => []
  | value => [(name, .plain value)]

/-- The parts of a value as a tuple; a missing value has no parts. -/
def asTuple (value : Value) : Except Failure Value := return .tuple (← value.toElements)

/-- The parts of a value as real numbers. -/
def asReals (value : Value) : Except Failure Value := do
  return .items ((← (← value.toElements).mapM Value.toReal).map .real)

/-- The value of a setting that may be missing, prepared for the library when it is not. -/
def prepared (prepare : Value → Except Failure Value) (value : Value) : Except Failure Value :=
  match value with
  | .null => .ok .null
  | value => prepare value

/-- The named options for the RAW library. The exposure shift is passed with its companion or not
at all, and the other settings that may be missing are passed only when they are there. -/
def options (s : DecodeSettings Given) : Except Failure Options := do
  let space ← s.space
  let algorithm ← s.algorithm
  let mode ← Value.toWhole s.highlightMode
  let gamma ← asTuple s.gamma
  let userWb ← prepared asReals s.userWb
  let aberration ← prepared asTuple s.chromaticAberration
  let exposure : Options := match s.expShift with
    | .null => []
    | shift =>
      [("exp_shift", .plain shift), ("exp_preserve_highlights", .plain s.expPreserveHighlights)]
  return [
    ("use_camera_wb", .plain s.useCameraWb), ("use_auto_wb", .plain s.useAutoWb),
    ("output_color", .colorSpace space), ("output_bps", .plain s.outputBps),
    ("bright", .plain s.bright), ("demosaic_algorithm", .demosaic algorithm),
    ("half_size", .plain s.halfSize), ("highlight_mode", .plain (.whole mode)),
    ("gamma", .plain gamma), ("median_filter_passes", .plain s.medianPasses),
    ("no_auto_bright", .plain s.noAutoBright), ("four_color_rgb", .plain s.fourColorRgb),
    ("dcb_iterations", .plain s.dcbIterations), ("dcb_enhance", .plain s.dcbEnhance)] ++
    optional "user_wb" userWb ++ optional "noise_thr" s.noiseThreshold ++ exposure ++
    optional "auto_bright_thr" s.autoBrightThreshold ++ optional "user_black" s.userBlack ++
    optional "chromatic_aberration" aberration ++ optional "user_flip" s.userFlip

end DecodeSettings

end Darkroom
