import Darkroom.Proofs.Settings.Sections

/-!
# Settings Read from a Section

When the settings for developing are read from a section, what they then are, and how other sections
are refused.

Reading a section is a long sequence of casts, one for each setting, before the constraints are
checked. So that no proof has to walk through it again, it is described here once: what is read
holds, name by name, what the entry of the name is worth (`ReadFrom`). All else follows from the
casts of the single entries.

## Main definitions

* `DecodeSettings.namesOf`: The names of the settings of a kind.
* `DecodeSettings.ReadFrom`: Settings hold what the entries of a section are worth.
* `DecodeSettings.Acceptable`: The entries of sections that are accepted.

## Theorems

* `DecodeSettings.parse_eq_ok_iff`: What is read from a section.
* `DecodeSettings.exists_readFrom_iff`: When every entry of a section can be cast.
* `DecodeSettings.exists_parse_iff`: When a section is accepted.
* `DecodeSettings.parse_fails`: How a section is refused.
-/

namespace Darkroom

open Failure

namespace DecodeSettings

/-- The names of the settings of a kind. -/
def namesOf : SettingKind → List String
  | .flag => ["use_camera_wb", "use_auto_wb", "half_size", "no_auto_bright", "four_color_rgb",
    "dcb_enhance"]
  | .whole => ["output_bps", "highlight_mode", "median_passes", "dcb_iterations", "shot_select"]
  | .real => ["bright", "exp_preserve_highlights"]
  | .text => ["output_color", "demosaic"]
  | .wholeOption => ["user_black", "user_flip"]
  | .realOption => ["noise_threshold", "exp_shift", "auto_bright_threshold"]
  | .pairOption => ["gamma", "chromatic_aberration"]
  | .quadOption => ["user_wb"]

/-- The standard gamma curve, as the entry of a section. -/
def gammaEntry : Value := .items [.real standardGamma.1, .real standardGamma.2]

/-- Settings hold what the entries of a section are worth. The name of the demosaicing algorithm is
    kept in capitals. -/
structure ReadFrom (entries : Section) (s : DecodeSettings Declared) : Prop where
  useCameraWb : s.useCameraWb = Section.flag entries "use_camera_wb" standard.useCameraWb
  useAutoWb : s.useAutoWb = Section.flag entries "use_auto_wb" standard.useAutoWb
  userWb : Section.quad entries "decode.user_wb" "user_wb" .null = .ok s.userWb
  outputColor : Section.text entries "output_color" standard.outputColor = .ok s.outputColor
  outputBps : Section.whole entries "output_bps" standard.outputBps = .ok s.outputBps
  bright : Section.real entries "bright" standard.bright = .ok s.bright
  demosaic : ∃ name, Section.text entries "demosaic" standard.demosaic = .ok name ∧
    s.demosaic = upperCase name
  halfSize : s.halfSize = Section.flag entries "half_size" standard.halfSize
  highlightMode :
    Section.whole entries "highlight_mode" standard.highlightMode = .ok s.highlightMode
  gamma : Section.pair entries "decode.gamma" "gamma" gammaEntry = .ok s.gamma
  noiseThreshold : Section.option entries Value.toReal "noise_threshold" = .ok s.noiseThreshold
  medianPasses : Section.whole entries "median_passes" standard.medianPasses = .ok s.medianPasses
  expShift : Section.option entries Value.toReal "exp_shift" = .ok s.expShift
  expPreserveHighlights :
    Section.real entries "exp_preserve_highlights" standard.expPreserveHighlights =
      .ok s.expPreserveHighlights
  noAutoBright : s.noAutoBright = Section.flag entries "no_auto_bright" standard.noAutoBright
  autoBrightThreshold :
    Section.option entries Value.toReal "auto_bright_threshold" = .ok s.autoBrightThreshold
  fourColorRgb : s.fourColorRgb = Section.flag entries "four_color_rgb" standard.fourColorRgb
  dcbIterations :
    Section.whole entries "dcb_iterations" standard.dcbIterations = .ok s.dcbIterations
  dcbEnhance : s.dcbEnhance = Section.flag entries "dcb_enhance" standard.dcbEnhance
  userBlack : Section.option entries Value.toWhole "user_black" = .ok s.userBlack
  chromaticAberration :
    Section.pair entries "decode.chromatic_aberration" "chromatic_aberration" .null =
      .ok s.chromaticAberration
  userFlip : Section.option entries Value.toWhole "user_flip" = .ok s.userFlip
  shotSelect : Section.whole entries "shot_select" standard.shotSelect = .ok s.shotSelect

variable {raw : Value} {entries : Section} {s t : DecodeSettings Declared}

/-- The entries of a section leave no choice. Where sections differ only in the size and the depth,
    so do the settings. -/
theorem ReadFrom.unique {other : Section} (hs : ReadFrom entries s) (ht : ReadFrom other t)
    (h : ∀ key ∉ ["half_size", "output_bps"], Value.lookup key entries = Value.lookup key other) :
    { s with halfSize := t.halfSize, outputBps := t.outputBps } = t := by
  rcases hs.demosaic with ⟨name, hname, hsdemosaic⟩
  rcases ht.demosaic with ⟨name', hname', htdemosaic⟩
  have hnames : name = name' :=
    ok_unique (Section.text_congr (h _ (by decide)) _) hname hname'
  cases s
  cases t
  congr
  · exact hs.useCameraWb.trans ((Section.flag_congr (h _ (by decide)) _).trans ht.useCameraWb.symm)
  · exact hs.useAutoWb.trans ((Section.flag_congr (h _ (by decide)) _).trans ht.useAutoWb.symm)
  · exact ok_unique (Section.quad_congr (h _ (by decide)) _ _) hs.userWb ht.userWb
  · exact ok_unique (Section.text_congr (h _ (by decide)) _) hs.outputColor ht.outputColor
  · exact ok_unique (Section.real_congr (h _ (by decide)) _) hs.bright ht.bright
  · exact hsdemosaic.trans ((congrArg upperCase hnames).trans htdemosaic.symm)
  · exact ok_unique (Section.whole_congr (h _ (by decide)) _) hs.highlightMode ht.highlightMode
  · exact ok_unique (Section.pair_congr (h _ (by decide)) _ _) hs.gamma ht.gamma
  · exact ok_unique (Section.option_congr (h _ (by decide)) _) hs.noiseThreshold ht.noiseThreshold
  · exact ok_unique (Section.whole_congr (h _ (by decide)) _) hs.medianPasses ht.medianPasses
  · exact ok_unique (Section.option_congr (h _ (by decide)) _) hs.expShift ht.expShift
  · exact ok_unique (Section.real_congr (h _ (by decide)) _) hs.expPreserveHighlights
      ht.expPreserveHighlights
  · exact hs.noAutoBright.trans
      ((Section.flag_congr (h _ (by decide)) _).trans ht.noAutoBright.symm)
  · exact ok_unique (Section.option_congr (h _ (by decide)) _) hs.autoBrightThreshold
      ht.autoBrightThreshold
  · exact hs.fourColorRgb.trans
      ((Section.flag_congr (h _ (by decide)) _).trans ht.fourColorRgb.symm)
  · exact ok_unique (Section.whole_congr (h _ (by decide)) _) hs.dcbIterations ht.dcbIterations
  · exact hs.dcbEnhance.trans ((Section.flag_congr (h _ (by decide)) _).trans ht.dcbEnhance.symm)
  · exact ok_unique (Section.option_congr (h _ (by decide)) _) hs.userBlack ht.userBlack
  · exact ok_unique (Section.pair_congr (h _ (by decide)) _ _) hs.chromaticAberration
      ht.chromaticAberration
  · exact ok_unique (Section.option_congr (h _ (by decide)) _) hs.userFlip ht.userFlip
  · exact ok_unique (Section.whole_congr (h _ (by decide)) _) hs.shotSelect ht.shotSelect

/-- What is read from a section. -/
theorem parse_eq_ok_iff : parse raw = .ok s ↔
    raw.HasOnly keys ∧ ∃ entries, raw.opened = .table entries ∧ s.ReadFrom entries ∧ s.Legal := by
  constructor
  · intro h
    unfold parse at h
    simp only [ok_bind_iff] at h
    rcases h with ⟨_, hkeys, entries, hentries, userWb, huserWb, outputColor, houtputColor,
      outputBps, houtputBps, bright, hbright, demosaic, hdemosaic, highlightMode, hhighlightMode,
      gamma, hgamma, noiseThreshold, hnoiseThreshold, medianPasses, hmedianPasses, expShift,
      hexpShift, preserve, hpreserve, threshold, hthreshold, dcbIterations, hdcbIterations,
      userBlack, huserBlack, aberration, haberration, userFlip, huserFlip, shotSelect, hshotSelect,
      _, hcheck, h⟩
    cases h
    exact ⟨checkKeys_eq_ok_iff.mp hkeys, entries, sectionEntries_eq_ok.mp hentries, ⟨rfl, rfl,
      huserWb, houtputColor, houtputBps, hbright, ⟨demosaic, hdemosaic, rfl⟩, rfl, hhighlightMode,
      hgamma, hnoiseThreshold, hmedianPasses, hexpShift, hpreserve, rfl, hthreshold, rfl,
      hdcbIterations, rfl, huserBlack, haberration, huserFlip, hshotSelect⟩,
      check_toGiven_iff.mp hcheck⟩
  · rintro ⟨hkeys, entries, hentries, h, hlegal⟩
    rcases h.demosaic with ⟨name, hname, hdemosaic⟩
    have hs : s = {
        useCameraWb := Section.flag entries "use_camera_wb" standard.useCameraWb
        useAutoWb := Section.flag entries "use_auto_wb" standard.useAutoWb
        userWb := s.userWb, outputColor := s.outputColor, outputBps := s.outputBps
        bright := s.bright
        demosaic := upperCase name
        halfSize := Section.flag entries "half_size" standard.halfSize
        highlightMode := s.highlightMode, gamma := s.gamma, noiseThreshold := s.noiseThreshold
        medianPasses := s.medianPasses, expShift := s.expShift
        expPreserveHighlights := s.expPreserveHighlights
        noAutoBright := Section.flag entries "no_auto_bright" standard.noAutoBright
        autoBrightThreshold := s.autoBrightThreshold
        fourColorRgb := Section.flag entries "four_color_rgb" standard.fourColorRgb
        dcbIterations := s.dcbIterations
        dcbEnhance := Section.flag entries "dcb_enhance" standard.dcbEnhance
        userBlack := s.userBlack, chromaticAberration := s.chromaticAberration
        userFlip := s.userFlip, shotSelect := s.shotSelect } := by
      rw [← h.useCameraWb, ← h.useAutoWb, ← hdemosaic, ← h.halfSize, ← h.noAutoBright,
        ← h.fourColorRgb, ← h.dcbEnhance]
    unfold parse
    simp only [ok_bind_iff]
    refine ⟨(), checkKeys_eq_ok_iff.mpr hkeys, entries, sectionEntries_eq_ok.mpr hentries, _,
      h.userWb, _, h.outputColor, _, h.outputBps, _, h.bright, _, hname, _, h.highlightMode, _,
      h.gamma, _, h.noiseThreshold, _, h.medianPasses, _, h.expShift, _, h.expPreserveHighlights, _,
      h.autoBrightThreshold, _, h.dcbIterations, _, h.userBlack, _, h.chromaticAberration, _,
      h.userFlip, _, h.shotSelect, (), ?_, ?_⟩
    · rw [← hs]
      exact check_toGiven_iff.mpr hlegal
    · rw [← hs]
      rfl

/-! When every entry can be cast. -/

theorem isReals_gammaEntry : gammaEntry.IsReals 2 := by
  refine Or.inr ⟨_, rfl, rfl, ?_⟩
  simp only [List.forall_mem_cons]
  exact ⟨⟨_, rfl⟩, ⟨_, rfl⟩, nofun⟩

/-- Some settings hold what the entries are worth when every entry is worth something. -/
theorem exists_readFrom_iff :
    (∃ s, ReadFrom entries s) ↔ entries.AllAre namesOf Value.IsWorth := by
  constructor
  · rintro ⟨s, h⟩ kind
    cases kind with
    | flag => exact fun _ _ _ _ => trivial
    | text =>
      rcases h.demosaic with ⟨name, hname, -⟩
      simp only [namesOf, List.forall_mem_cons]
      exact ⟨Section.exists_text_iff.mp ⟨_, h.outputColor⟩,
        Section.exists_text_iff.mp ⟨name, hname⟩, nofun⟩
    | whole =>
      simp only [namesOf, List.forall_mem_cons]
      exact ⟨Section.exists_whole_iff.mp ⟨_, h.outputBps⟩,
        Section.exists_whole_iff.mp ⟨_, h.highlightMode⟩,
        Section.exists_whole_iff.mp ⟨_, h.medianPasses⟩,
        Section.exists_whole_iff.mp ⟨_, h.dcbIterations⟩,
        Section.exists_whole_iff.mp ⟨_, h.shotSelect⟩, nofun⟩
    | real =>
      simp only [namesOf, List.forall_mem_cons]
      exact ⟨Section.exists_real_iff.mp ⟨_, h.bright⟩,
        Section.exists_real_iff.mp ⟨_, h.expPreserveHighlights⟩, nofun⟩
    | wholeOption =>
      simp only [namesOf, List.forall_mem_cons]
      exact ⟨Section.exists_option_iff.mp ⟨_, h.userBlack⟩,
        Section.exists_option_iff.mp ⟨_, h.userFlip⟩, nofun⟩
    | realOption =>
      simp only [namesOf, List.forall_mem_cons]
      exact ⟨Section.exists_option_iff.mp ⟨_, h.noiseThreshold⟩,
        Section.exists_option_iff.mp ⟨_, h.expShift⟩,
        Section.exists_option_iff.mp ⟨_, h.autoBrightThreshold⟩, nofun⟩
    | pairOption =>
      simp only [namesOf, List.forall_mem_cons]
      exact ⟨(Section.exists_pair_iff isReals_gammaEntry).mp ⟨_, h.gamma⟩,
        (Section.exists_pair_iff (Or.inl rfl)).mp ⟨_, h.chromaticAberration⟩, nofun⟩
    | quadOption =>
      simp only [namesOf, List.forall_mem_cons]
      exact ⟨(Section.exists_quad_iff (Or.inl rfl)).mp ⟨_, h.userWb⟩, nofun⟩
  · intro h
    have htext := h .text
    have hwhole := h .whole
    have hreal := h .real
    have hwholeOption := h .wholeOption
    have hrealOption := h .realOption
    have hpair := h .pairOption
    have hquad := h .quadOption
    simp only [namesOf, List.forall_mem_cons] at htext hwhole hreal hwholeOption hrealOption
    simp only [namesOf, List.forall_mem_cons] at hpair hquad
    rcases Section.exists_text_iff.mpr htext.1 with ⟨outputColor, houtputColor⟩
    rcases Section.exists_text_iff.mpr htext.2.1 with ⟨demosaic, hdemosaic⟩
    rcases Section.exists_whole_iff.mpr hwhole.1 with ⟨outputBps, houtputBps⟩
    rcases Section.exists_whole_iff.mpr hwhole.2.1 with ⟨highlightMode, hhighlightMode⟩
    rcases Section.exists_whole_iff.mpr hwhole.2.2.1 with ⟨medianPasses, hmedianPasses⟩
    rcases Section.exists_whole_iff.mpr hwhole.2.2.2.1 with ⟨dcbIterations, hdcbIterations⟩
    rcases Section.exists_whole_iff.mpr hwhole.2.2.2.2.1 with ⟨shotSelect, hshotSelect⟩
    rcases Section.exists_real_iff.mpr hreal.1 with ⟨bright, hbright⟩
    rcases Section.exists_real_iff.mpr hreal.2.1 with ⟨preserve, hpreserve⟩
    rcases Section.exists_option_iff.mpr hwholeOption.1 with ⟨userBlack, huserBlack⟩
    rcases Section.exists_option_iff.mpr hwholeOption.2.1 with ⟨userFlip, huserFlip⟩
    rcases Section.exists_option_iff.mpr hrealOption.1 with ⟨noise, hnoise⟩
    rcases Section.exists_option_iff.mpr hrealOption.2.1 with ⟨expShift, hexpShift⟩
    rcases Section.exists_option_iff.mpr hrealOption.2.2.1 with ⟨threshold, hthreshold⟩
    rcases (Section.exists_pair_iff isReals_gammaEntry).mpr hpair.1 with ⟨gamma, hgamma⟩
    rcases (Section.exists_pair_iff (Or.inl rfl)).mpr hpair.2.1 with ⟨aberration, haberration⟩
    rcases (Section.exists_quad_iff (Or.inl rfl)).mpr hquad.1 with ⟨userWb, huserWb⟩
    exact ⟨⟨_, _, userWb, outputColor, outputBps, bright, _, _, highlightMode, gamma, noise,
      medianPasses, expShift, preserve, _, threshold, _, dcbIterations, _, userBlack, aberration,
      userFlip, shotSelect⟩, rfl, rfl, huserWb, houtputColor, houtputBps, hbright,
      ⟨demosaic, hdemosaic, rfl⟩, rfl, hhighlightMode, hgamma, hnoise, hmedianPasses, hexpShift,
      hpreserve, rfl, hthreshold, rfl, hdcbIterations, rfl, huserBlack, haberration, huserFlip,
      hshotSelect⟩

/-- Entries that can be cast, to what the constraints allow. The name of the demosaicing algorithm
    is put in capitals when it is read, and again when it is looked up. -/
structure Acceptable (entries : Section) : Prop where
  worth : entries.AllAre namesOf Value.IsWorth
  demosaic : entries.Says "demosaic" fun value => ∀ name, value.asText = .ok name →
    ∃ algorithm, Demosaic.ofName? (upperCase (upperCase name)) = some algorithm
  outputColor : entries.Says "output_color" fun value => ∀ name, value.asText = .ok name →
    ∃ space, ColorSpace.ofName? name = some space
  outputBps : entries.Says "output_bps" fun value => ∀ n, value.toWhole = .ok n → IsDepth n
  highlightMode : entries.Says "highlight_mode" fun value => ∀ n, value.toWhole = .ok n →
    IsHighlightMode n
  userFlip : entries.Says "user_flip" fun value => ∀ n, value.toWhole = .ok n → n ∈ [0, 3, 5, 6]

theorem isFlip_of_option {flip : Option Int}
    (h : Section.option entries Value.toWhole "user_flip" = .ok flip) : IsFlip flip ↔
      entries.Says "user_flip" fun value => ∀ n, value.toWhole = .ok n → n ∈ [0, 3, 5, 6] := by
  unfold Section.option at h
  split at h
  · next hnull =>
    cases h
    refine iff_of_true (by rintro turn ⟨⟩) (Section.says_of_get .null ?_)
    rw [hnull]
    nofun
  · cases hturn : (Section.get entries "user_flip" .null).toWhole with
    | error failure =>
      rw [hturn] at h
      cases h
    | ok turn =>
      rw [hturn] at h
      cases h
      rw [Section.says_worth_iff hturn nofun]
      unfold IsFlip
      simp

/-- The constraints on what was read are constraints on the entries. -/
theorem ReadFrom.acceptable_iff (h : ReadFrom entries s) : Acceptable entries ↔ s.Legal := by
  rcases h.demosaic with ⟨name, hname, hdemosaic⟩
  have hworth := exists_readFrom_iff.mp ⟨s, h⟩
  have hdefaultDemosaic : ∀ name, (Value.text standard.demosaic).asText = .ok name →
      ∃ algorithm, Demosaic.ofName? (upperCase (upperCase name)) = some algorithm := by
    rintro _ ⟨⟩
    exact ⟨.ahd, rfl⟩
  have hdefaultColor : ∀ name, (Value.text standard.outputColor).asText = .ok name →
      ∃ space, ColorSpace.ofName? name = some space := by
    rintro _ ⟨⟩
    exact ⟨.sRGB, rfl⟩
  have hdefaultDepth : ∀ n, (Value.whole standard.outputBps).toWhole = .ok n → IsDepth n := by
    rintro _ ⟨⟩
    exact Or.inl rfl
  have hdefaultMode : ∀ n, (Value.whole standard.highlightMode).toWhole = .ok n →
      IsHighlightMode n := by
    rintro _ ⟨⟩
    show (0 : Int) ≤ 0 ∧ (0 : Int) ≤ 9
    decide
  constructor
  · rintro ⟨-, halgorithm, hspace, hdepth, hmode, hflip⟩
    refine ⟨?_, (Section.says_worth_iff h.outputColor hdefaultColor).mp hspace,
      (Section.says_worth_iff h.outputBps hdefaultDepth).mp hdepth,
      (Section.says_worth_iff h.highlightMode hdefaultMode).mp hmode,
      (isFlip_of_option h.userFlip).mpr hflip⟩
    rw [hdemosaic]
    exact (Section.says_worth_iff hname hdefaultDemosaic).mp halgorithm
  · rintro ⟨halgorithm, hspace, hdepth, hmode, hflip⟩
    rw [hdemosaic] at halgorithm
    exact ⟨hworth, (Section.says_worth_iff hname hdefaultDemosaic).mpr halgorithm,
      (Section.says_worth_iff h.outputColor hdefaultColor).mpr hspace,
      (Section.says_worth_iff h.outputBps hdefaultDepth).mpr hdepth,
      (Section.says_worth_iff h.highlightMode hdefaultMode).mpr hmode,
      (isFlip_of_option h.userFlip).mp hflip⟩

/-- When a section on developing is accepted. -/
theorem exists_parse_iff : (∃ s, parse raw = .ok s) ↔
    raw.HasOnly keys ∧ ∃ entries, raw.opened = .table entries ∧ Acceptable entries := by
  simp only [parse_eq_ok_iff, exists_and_left]
  refine and_congr_right fun _ => ?_
  rw [exists_comm]
  refine exists_congr fun entries => ?_
  rw [exists_and_left]
  refine and_congr_right fun _ => ?_
  constructor
  · rintro ⟨s, h, hlegal⟩
    exact h.acceptable_iff.mpr hlegal
  · intro h
    rcases exists_readFrom_iff.mpr h.worth with ⟨s, hs⟩
    exact ⟨s, hs, hs.acceptable_iff.mp h⟩

/-! How a section is refused. -/

/-- Settings of the declared types can only break the constraints. -/
theorem check_toGiven_fails : FailsOnly IsBadValue s.toGiven.check := by
  have halgorithm : FailsOnly IsBadValue s.toGiven.algorithm := by
    unfold DecodeSettings.algorithm
    rw [demosaic_toGiven]
    dsimp only
    split
    · exact failsOnly_ok _
    · exact failsOnly_error (Or.inl rfl)
  have hspace : FailsOnly IsBadValue s.toGiven.space := by
    unfold DecodeSettings.space
    rw [outputColor_toGiven]
    dsimp only
    split
    · exact failsOnly_ok _
    · exact failsOnly_error (Or.inl rfl)
  unfold check
  refine halgorithm.bind fun _ _ => hspace.bind fun _ _ => ?_
  split
  · exact failsOnly_error (Or.inl rfl)
  · refine FailsOnly.bind (failsOnly_ok s.highlightMode) fun mode _ => ?_
    split
    · exact failsOnly_error (Or.inl rfl)
    · split
      · exact failsOnly_ok ()
      · split
        · exact failsOnly_ok ()
        · exact failsOnly_error (Or.inl rfl)

/-- A section is refused for its values, unless they are of shapes that are not made for casting. -/
theorem parse_fails :
    FailsOnly (BadUnless (raw.IsRegular keys fun entries => entries.AllAre namesOf Value.MayBe))
      (parse raw) := by
  unfold parse
  refine (checkKeys_fails.mono (BadUnless.mono And.left)).bind fun _ hkeys => ?_
  have hknown := checkKeys_eq_ok_iff.mp hkeys
  refine hknown.sectionEntries_fails.bind fun entries hentries => ?_
  -- From here on, all that matters of the section is its entries.
  refine FailsOnly.mono ?_ (BadUnless.mono fun h => h.entriesFit hknown hentries)
  refine (Section.quadOption_fails (by simp [namesOf]) (Or.inl rfl)).bind fun _ _ => ?_
  refine (Section.text_fails fun e he => he.badUnless _).bind fun _ _ => ?_
  refine (Section.whole_fails (by simp [namesOf])).bind fun _ _ => ?_
  refine (Section.real_fails (by simp [namesOf])).bind fun _ _ => ?_
  refine (Section.text_fails fun e he => he.badUnless _).bind fun _ _ => ?_
  refine (Section.whole_fails (by simp [namesOf])).bind fun _ _ => ?_
  refine (Section.pairOption_fails (by simp [namesOf]) isReals_gammaEntry.mayBe).bind fun _ _ => ?_
  refine (Section.realOption_fails (by simp [namesOf])).bind fun _ _ => ?_
  refine (Section.whole_fails (by simp [namesOf])).bind fun _ _ => ?_
  refine (Section.realOption_fails (by simp [namesOf])).bind fun _ _ => ?_
  refine (Section.real_fails (by simp [namesOf])).bind fun _ _ => ?_
  refine (Section.realOption_fails (by simp [namesOf])).bind fun _ _ => ?_
  refine (Section.whole_fails (by simp [namesOf])).bind fun _ _ => ?_
  refine (Section.wholeOption_fails (by simp [namesOf])).bind fun _ _ => ?_
  refine (Section.pairOption_fails (by simp [namesOf]) (Or.inl rfl)).bind fun _ _ => ?_
  refine (Section.wholeOption_fails (by simp [namesOf])).bind fun _ _ => ?_
  refine (Section.whole_fails (by simp [namesOf])).bind fun _ _ => ?_
  refine (check_toGiven_fails.mono fun e he => he.badUnless _).bind fun _ _ => ?_
  exact failsOnly_ok _

end DecodeSettings

end Darkroom
