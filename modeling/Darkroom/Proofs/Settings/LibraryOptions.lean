import Darkroom.Proofs.Settings.PartialSections
import Darkroom.Raw.File

/-!
# Options for the RAW Library

No setting is lost on the way to the RAW library.

Every setting has an option of its own, and an option that is left out stands for one value only: a
setting that is missing, or the first picture of a file. So the settings can be read off the
options. Two of them are hidden on purpose. The name of the demosaicing algorithm is looked up in
capitals, so its letter case is not told, and what is kept of the highlights is told only together
with an exposure shift.

Options are compared by what they hold under each name, since their order means nothing to the
library.

## Main definitions

* `DecodeSettings.passed`: A value as an option.
* `DecodeSettings.balanceValue`, `DecodeSettings.keptValue`: The values that tell a white balance and
  the highlights to keep.
* `DecodeSettings.shotOption`: The picture of a file as an option.
* `DecodeSettings.Tells`: Options hold the settings under their names.

## Theorems

* `Declared.toGiven_injective`: A value tells what it is the value of.
* `DecodeSettings.tells_of_options`: The options of settings hold them.
* `DecodeSettings.Tells.unique`: Options tell the settings.
* `DecodeSettings.options_hidden`: What options do not tell.
* `DecodeSettings.opening_eq_iff`: What is told when a file is opened.
* `DecodeSettings.options_tell_settings`: When settings cannot be told apart by the library.
-/

namespace Darkroom

/-- What is found under a name has this name. -/
theorem ColorSpace.name_of_ofName? {name : String} {space : ColorSpace}
    (h : ColorSpace.ofName? name = some space) : space.name = name := by
  simpa using List.find?_some h

/-- A value tells what it is the value of. -/
theorem Declared.toGiven_injective (kind : SettingKind) {a b : Declared kind}
    (h : Declared.toGiven kind a = Declared.toGiven kind b) : a = b := by
  cases kind with
  | flag => exact Value.flag.inj h
  | whole => exact Value.whole.inj h
  | real => exact Value.real.inj h
  | text => exact Value.text.inj h
  | wholeOption | realOption => cases a <;> cases b <;> cases h <;> rfl
  | pairOption => rcases a with _ | ⟨_, _⟩ <;> rcases b with _ | ⟨_, _⟩ <;> cases h <;> rfl
  | quadOption =>
    rcases a with _ | ⟨_, _, _, _⟩ <;> rcases b with _ | ⟨_, _, _, _⟩ <;> cases h <;> rfl

namespace DecodeSettings

/-- A value as an option: nothing is left out. -/
def passed (value : Value) : Option OptionValue :=
  match value with
  | .null => none
  | value => some (.plain value)

theorem passed_of_ne {value : Value} (h : value ≠ .null) : passed value = some (.plain value) := by
  unfold passed
  split
  · exact absurd rfl h
  · rfl

theorem passed_injective {v w : Value} (h : passed v = passed w) : v = w := by
  by_cases hv : v = .null
  · by_cases hw : w = .null
    · rw [hv, hw]
    · rw [hv, passed_of_ne hw] at h
      cases h
  · by_cases hw : w = .null
    · rw [hw, passed_of_ne hv] at h
      cases h
    · rw [passed_of_ne hv, passed_of_ne hw] at h
      exact OptionValue.plain.inj (Option.some.inj h)

theorem optional_of_ne (name : String) {value : Value} (h : value ≠ .null) :
    optional name value = [(name, .plain value)] := by
  unfold optional
  split
  · exact absurd rfl h
  · rfl

theorem lookup_optional (key name : String) (value : Value) :
    (optional name value).lookup key = if key = name then passed value else none := by
  by_cases hnull : value = .null
  · subst hnull
    exact (ite_self none).symm
  · rw [optional_of_ne name hnull, passed_of_ne hnull, List.lookup_cons]
    by_cases hkey : key = name
    · rw [if_pos hkey, beq_iff_eq.mpr hkey]
    · rw [if_neg hkey, beq_eq_false_iff_ne.mpr hkey]
      rfl

/-- The value that tells a white balance. -/
def balanceValue : Option (Double × Double × Double × Double) → Value
  | none => .null
  | some (a, b, c, d) => .items [.real a, .real b, .real c, .real d]

theorem balanceValue_injective {a b : Option (Double × Double × Double × Double)}
    (h : balanceValue a = balanceValue b) : a = b := by
  rcases a with _ | ⟨_, _, _, _⟩ <;> rcases b with _ | ⟨_, _, _, _⟩ <;> cases h <;> rfl

theorem prepared_quad (quad : Option (Double × Double × Double × Double)) :
    prepared asReals (Declared.toGiven .quadOption quad) = .ok (balanceValue quad) := by
  rcases quad with _ | ⟨a, b, c, d⟩ <;> rfl

theorem prepared_pair (pair : Option (Double × Double)) :
    prepared asTuple (Declared.toGiven .pairOption pair) =
      .ok (Declared.toGiven .pairOption pair) := by
  rcases pair with _ | ⟨a, b⟩ <;> rfl

/-- A tuple of the parts of a pair is the pair, and what is missing has no parts. -/
theorem asTuple_pair {pair : Option (Double × Double)} {value : Value}
    (h : asTuple (Declared.toGiven .pairOption pair) = .ok value) :
    value = Declared.toGiven .pairOption pair := by
  rcases pair with _ | ⟨a, b⟩ <;> cases h
  rfl

/-- What is told of the part of the highlights to keep: nothing without an exposure shift. -/
def keptValue (s : DecodeSettings Declared) : Value :=
  match s.expShift with
  | none => .null
  | some _ => Declared.toGiven .real s.expPreserveHighlights

/-- Options hold the settings under their names. -/
structure Tells (a : Options) (s : DecodeSettings Declared) : Prop where
  useCameraWb : a.lookup "use_camera_wb" = passed s.toGiven.useCameraWb
  useAutoWb : a.lookup "use_auto_wb" = passed s.toGiven.useAutoWb
  userWb : a.lookup "user_wb" = passed (balanceValue s.userWb)
  outputColor : ∃ space, ColorSpace.ofName? s.outputColor = some space ∧
    a.lookup "output_color" = some (.colorSpace space)
  outputBps : a.lookup "output_bps" = passed s.toGiven.outputBps
  bright : a.lookup "bright" = passed s.toGiven.bright
  demosaic : ∃ algorithm, Demosaic.ofName? (upperCase s.demosaic) = some algorithm ∧
    a.lookup "demosaic_algorithm" = some (.demosaic algorithm)
  halfSize : a.lookup "half_size" = passed s.toGiven.halfSize
  highlightMode : a.lookup "highlight_mode" = passed s.toGiven.highlightMode
  gamma : a.lookup "gamma" = passed s.toGiven.gamma
  noiseThreshold : a.lookup "noise_thr" = passed s.toGiven.noiseThreshold
  medianPasses : a.lookup "median_filter_passes" = passed s.toGiven.medianPasses
  expShift : a.lookup "exp_shift" = passed s.toGiven.expShift
  expPreserveHighlights : a.lookup "exp_preserve_highlights" = passed s.keptValue
  noAutoBright : a.lookup "no_auto_bright" = passed s.toGiven.noAutoBright
  autoBrightThreshold : a.lookup "auto_bright_thr" = passed s.toGiven.autoBrightThreshold
  fourColorRgb : a.lookup "four_color_rgb" = passed s.toGiven.fourColorRgb
  dcbIterations : a.lookup "dcb_iterations" = passed s.toGiven.dcbIterations
  dcbEnhance : a.lookup "dcb_enhance" = passed s.toGiven.dcbEnhance
  userBlack : a.lookup "user_black" = passed s.toGiven.userBlack
  chromaticAberration : a.lookup "chromatic_aberration" = passed s.toGiven.chromaticAberration
  userFlip : a.lookup "user_flip" = passed s.toGiven.userFlip

variable {s t : DecodeSettings Declared} {a b : Options}

/-- The options of settings hold them. -/
theorem tells_of_options (h : s.toGiven.options = .ok a) : Tells a s := by
  unfold options at h
  simp -zeta only [ok_bind_iff] at h
  rcases h with ⟨space, hspace, algorithm, halgorithm, mode, hmode, gamma, hgamma, balance,
    hbalance, aberration, haberration, h⟩
  extract_lets exposure at h
  cases hmode
  have hcurve : gamma = s.toGiven.gamma := asTuple_pair hgamma
  have hquad := Except.ok.inj (hbalance.symm.trans (prepared_quad s.userWb))
  have hpair : aberration = s.toGiven.chromaticAberration :=
    Except.ok.inj (haberration.symm.trans (prepared_pair s.chromaticAberration))
  -- The exposure shift and its companion are two options that may be left out.
  have hexposure : exposure = optional "exp_shift" s.toGiven.expShift ++
      optional "exp_preserve_highlights" s.keptValue := by
    have hshift : s.toGiven.expShift = Declared.toGiven .realOption s.expShift := rfl
    unfold exposure
    rw [hshift, keptValue]
    cases s.expShift <;> rfl
  rw [hexposure, hcurve, hquad, hpair] at h
  cases h
  constructor
  case outputColor => exact ⟨space, space_toGiven_eq_ok.mp hspace, rfl⟩
  case demosaic => exact ⟨algorithm, algorithm_toGiven_eq_ok.mp halgorithm, rfl⟩
  case gamma =>
    rcases exists_asTuple_iff.mp ⟨_, hgamma⟩ with ⟨curve, hsome⟩
    have hvalue : s.toGiven.gamma = Declared.toGiven .pairOption (some curve) :=
      congrArg (Declared.toGiven .pairOption) hsome
    rw [hvalue]
    rfl
  case userWb | noiseThreshold | expShift | expPreserveHighlights | autoBrightThreshold |
      userBlack | chromaticAberration | userFlip =>
    simp only [List.lookup_append, lookup_optional]
    simp [List.lookup_cons]
  all_goals rfl

/-- Options that hold the same under every name hold the same settings, but for the letter case of
    the demosaicing algorithm and for what is not told without an exposure shift. -/
theorem Tells.unique (hs : Tells a s) (ht : Tells b t)
    (hshot : s.shotSelect = t.shotSelect) (h : ∀ name, a.lookup name = b.lookup name) :
    { s with demosaic := t.demosaic, expPreserveHighlights := t.expPreserveHighlights } = t ∧
      upperCase s.demosaic = upperCase t.demosaic ∧
      (s.expShift ≠ none → s.expPreserveHighlights = t.expPreserveHighlights) := by
  have hsame {kind : SettingKind} {x y : Declared kind} {name : String}
      (hx : a.lookup name = passed (Declared.toGiven kind x))
      (hy : b.lookup name = passed (Declared.toGiven kind y)) : x = y := by
    refine Declared.toGiven_injective kind (passed_injective ?_)
    rw [← hx, ← hy, h]
  rcases hs.outputColor with ⟨space, hspace, hcolor⟩
  rcases ht.outputColor with ⟨space', hspace', hcolor'⟩
  rcases hs.demosaic with ⟨algorithm, halgorithm, hdemosaic⟩
  rcases ht.demosaic with ⟨algorithm', halgorithm', hdemosaic'⟩
  have hspaces : space = space' := by
    rw [h, hcolor'] at hcolor
    exact (OptionValue.colorSpace.inj (Option.some.inj hcolor)).symm
  have halgorithms : algorithm = algorithm' := by
    rw [h, hdemosaic'] at hdemosaic
    exact (OptionValue.demosaic.inj (Option.some.inj hdemosaic)).symm
  have hcolors : s.outputColor = t.outputColor := by
    rw [← ColorSpace.name_of_ofName? hspace, hspaces, ColorSpace.name_of_ofName? hspace']
  have hbalance : s.userWb = t.userWb := by
    refine balanceValue_injective (passed_injective ?_)
    rw [← hs.userWb, ← ht.userWb, h]
  have hshift : s.expShift = t.expShift := hsame hs.expShift ht.expShift
  refine ⟨?_, ?_, fun hpresent => ?_⟩
  · cases s
    cases t
    rw [DecodeSettings.mk.injEq]
    exact ⟨hsame hs.useCameraWb ht.useCameraWb, hsame hs.useAutoWb ht.useAutoWb, hbalance, hcolors,
      hsame hs.outputBps ht.outputBps, hsame hs.bright ht.bright, rfl,
      hsame hs.halfSize ht.halfSize, hsame hs.highlightMode ht.highlightMode,
      hsame hs.gamma ht.gamma, hsame hs.noiseThreshold ht.noiseThreshold,
      hsame hs.medianPasses ht.medianPasses, hshift, rfl, hsame hs.noAutoBright ht.noAutoBright,
      hsame hs.autoBrightThreshold ht.autoBrightThreshold, hsame hs.fourColorRgb ht.fourColorRgb,
      hsame hs.dcbIterations ht.dcbIterations, hsame hs.dcbEnhance ht.dcbEnhance,
      hsame hs.userBlack ht.userBlack, hsame hs.chromaticAberration ht.chromaticAberration,
      hsame hs.userFlip ht.userFlip, hshot⟩
  · rw [← Demosaic.name_of_ofName? halgorithm, halgorithms,
      Demosaic.name_of_ofName? halgorithm']
  · rcases Option.ne_none_iff_exists'.mp hpresent with ⟨shift, hsome⟩
    have hkept := hs.expPreserveHighlights
    have hkept' := ht.expPreserveHighlights
    rw [keptValue, hsome] at hkept
    rw [keptValue, ← hshift, hsome] at hkept'
    exact hsame hkept hkept'

/-! ### What is hidden -/

/-- The letter case of the demosaicing algorithm is not told. -/
theorem options_demosaic (hs : s.Legal) {name : String}
    (h : upperCase s.demosaic = upperCase name) :
    ({ s with demosaic := name } : DecodeSettings Declared).toGiven.options =
      s.toGiven.options := by
  rcases hs.demosaic with ⟨algorithm, halgorithm⟩
  have hfound := algorithm_toGiven_eq_ok.mpr halgorithm
  rw [h] at halgorithm
  have hfound' :=
    (algorithm_toGiven_eq_ok (s := { s with demosaic := name })).mpr halgorithm
  unfold options
  rw [hfound, hfound']
  rfl

/-- What is kept of the highlights is not told without an exposure shift. -/
theorem options_kept (h : s.expShift = none) (x : Double) :
    ({ s with expPreserveHighlights := x } : DecodeSettings Declared).toGiven.options =
      s.toGiven.options := by
  cases s
  cases h
  rfl

/-- What is hidden does not change the options. -/
theorem options_hidden (hs : s.Legal) {name : String} {x : Double}
    (hcase : upperCase s.demosaic = upperCase name)
    (hkept : s.expShift ≠ none → s.expPreserveHighlights = x) :
    ({ s with demosaic := name, expPreserveHighlights := x } :
      DecodeSettings Declared).toGiven.options = s.toGiven.options := by
  rw [← options_demosaic hs hcase]
  by_cases hshift : s.expShift = none
  · exact options_kept (s := { s with demosaic := name }) hshift x
  · rw [← hkept hshift]

/-! ### The picture of a file -/

/-- The picture of a file as an option: the first one is not named. -/
def shotOption (shot : ℤ) : Option OptionValue :=
  if shot = 0 then none else some (.plain (.whole shot))

theorem shotOption_injective {m n : ℤ} (h : shotOption m = shotOption n) : m = n := by
  unfold shotOption at h
  split_ifs at h with hm hn hn
  · exact hm.trans hn.symm
  · exact Value.whole.inj (OptionValue.plain.inj (Option.some.inj h))

theorem lookup_opening (s : DecodeSettings Declared) (source : Source) :
    (RawFile.opening s.toGiven source).options.lookup "shot_select" = shotOption s.shotSelect := by
  have hwhole (shot : ℤ) : List.lookup "shot_select"
      (if Value.isTrue (.whole shot) then [("shot_select", OptionValue.plain (.whole shot))]
        else []) = shotOption shot := by
    unfold shotOption
    by_cases hzero : shot = 0
    · subst hzero
      rfl
    · have htrue : (Value.whole shot).isTrue = true := decide_eq_true hzero
      rw [if_pos htrue, if_neg hzero]
      rfl
  exact hwhole s.shotSelect

/-- The picture is told when a file is opened, and nothing else is. -/
theorem opening_eq_iff (source other : Source) :
    (∀ name, (RawFile.opening s.toGiven source).options.lookup name =
      (RawFile.opening t.toGiven other).options.lookup name) ↔ s.shotSelect = t.shotSelect := by
  constructor
  · intro h
    have hshot := h "shot_select"
    rw [lookup_opening, lookup_opening] at hshot
    exact shotOption_injective hshot
  · intro h name
    have hshot : s.toGiven.shotSelect = t.toGiven.shotSelect := congrArg (Declared.toGiven .whole) h
    unfold RawFile.opening
    rw [hshot]

/-- No setting is lost on the way to the RAW library. Two settings for developing have the same
    options, when a file is opened and when it is developed, just if they differ at most in the
    letter case of the demosaicing algorithm and, where there is no exposure shift, in what is kept
    of the highlights. -/
theorem options_tell_settings (source other : Source) (s t : DecodeSettings Declared)
    (hs : s.toGiven.check = .ok ()) (ht : t.toGiven.check = .ok ()) (hscurve : s.gamma ≠ none)
    (htcurve : t.gamma ≠ none) :
    ∃ a b, s.toGiven.options = .ok a ∧ t.toGiven.options = .ok b ∧
      (((∀ name, (RawFile.opening s.toGiven source).options.lookup name =
            (RawFile.opening t.toGiven other).options.lookup name) ∧
          ∀ name, a.lookup name = b.lookup name) ↔
        { s with demosaic := t.demosaic, expPreserveHighlights := t.expPreserveHighlights } = t ∧
        upperCase s.demosaic = upperCase t.demosaic ∧
        (s.expShift ≠ none → s.expPreserveHighlights = t.expPreserveHighlights)) := by
  have hslegal := check_toGiven_iff.mp hs
  rcases (exists_options_iff hslegal).mpr (Option.ne_none_iff_exists'.mp hscurve) with ⟨a, ha⟩
  rcases (exists_options_iff (check_toGiven_iff.mp ht)).mpr
    (Option.ne_none_iff_exists'.mp htcurve) with ⟨b, hb⟩
  refine ⟨a, b, ha, hb, ?_, ?_⟩
  · rintro ⟨hopening, hlookup⟩
    have hshot := (opening_eq_iff source other).mp hopening
    exact (tells_of_options ha).unique (tells_of_options hb) hshot hlookup
  · rintro ⟨hagree, hcase, hkept⟩
    have hshot : s.shotSelect = t.shotSelect := by
      rw [← hagree]
    refine ⟨(opening_eq_iff source other).mpr hshot, fun name => ?_⟩
    have hsame := options_hidden hslegal hcase hkept
    rw [hagree, ha, hb] at hsame
    rw [Except.ok.inj hsame]

/-- The standard algorithm in small letters, and highlights kept without an exposure shift. -/
def hidden : DecodeSettings Declared :=
  { standard with demosaic := "ahd", expPreserveHighlights := (1 : Double) }

/-- Such settings are those of the standard to the library. -/
theorem options_tell_hidden : hidden.toGiven.check = .ok () ∧ standard.toGiven.check = .ok () ∧
    hidden.gamma ≠ none ∧ standard.gamma ≠ none ∧
    ∃ a b, hidden.toGiven.options = .ok a ∧ standard.toGiven.options = .ok b ∧
      ∀ name, a.lookup name = b.lookup name := by
  have hcheck : hidden.toGiven.check = .ok () := rfl
  have hstandard : standard.toGiven.check = .ok () := rfl
  have hcurve : hidden.gamma ≠ none := nofun
  have hcurve' : standard.gamma ≠ none := nofun
  rcases options_tell_settings (.bytes .empty) (.bytes .empty) hidden standard hcheck hstandard
    hcurve hcurve' with ⟨a, b, ha, hb, hsame⟩
  have hagree := hsame.mpr ⟨rfl, by decide, fun hshift => absurd rfl hshift⟩
  exact ⟨hcheck, hstandard, hcurve, hcurve', a, b, ha, hb, hagree.2⟩

end DecodeSettings

end Darkroom
