import Darkroom.Proofs.Files.Steps
import Darkroom.Settings.Decode
import Mathlib.Data.List.Basic

/-!
# Usable Settings

Settings that a section is read as can be used, unless the section takes the gamma curve away.

Every value of a section is cast to the type of its kind, so what the casts let through has the
right type, and the check that comes last leaves only known names and numbers within their bounds.
The options for the RAW library look the names up again, and find them. They take the pairs and
quadruples apart, which casting has put together.

One kind promises less than it is used for. A pair may be missing, and for the correction of colours
a missing pair is left out of the options. The gamma curve is a pair too, but the options always
need one: without an entry the section has the standard curve, and with an entry of nothing it has
none. Such a section is read without a complaint, and fails as soon as a file is developed.

## Main definitions

* `DecodeSettings.Legal`: The constraints that settings of the declared types must meet.

## Theorems

* `Section.pair_eq_ok_none_iff`: A pair is missing when its value is nothing.
* `DecodeSettings.check_toGiven_iff`: The check finds just these constraints.
* `DecodeSettings.exists_options_iff`: Legal settings have options when they have a gamma curve.
* `DecodeSettings.usable_of_parse`: What settings from a section can be used for.
-/

namespace Darkroom

theorem Value.isOneOf_whole {n : Int} {numbers : List Int} :
    Value.isOneOf (.whole n) numbers = true ↔ n ∈ numbers := by
  simp [Value.isOneOf, Value.same, Value.number?, Value.sameNumber]

namespace Section

variable {entries : Section} {label key : String} {default : Value} {count : Nat}

theorem length_of_mapM_eq_ok {α β : Type} {f : α → Except Failure β} {values : List α}
    {results : List β} (h : values.mapM f = .ok results) : results.length = values.length := by
  induction values generalizing results with
  | nil =>
    cases h
    rfl
  | cons value rest ih =>
    rw [List.mapM_cons] at h
    rcases ok_bind_iff.mp h with ⟨result, -, h⟩
    rcases ok_bind_iff.mp h with ⟨more, hmore, h⟩
    cases h
    rw [List.length_cons, List.length_cons, ih hmore]

/-- Numbers that were read are as many as asked for, or the value is nothing. -/
theorem reals_eq_ok {value : Value} {found : Option (List Double)}
    (h : reals count label value = .ok found) :
    (value = .null ∧ found = none) ∨ (value ≠ .null ∧ ∃ l, found = some l ∧ l.length = count) := by
  unfold reals at h
  split at h
  · cases h
    exact Or.inl ⟨rfl, rfl⟩
  · rename_i hnull
    rcases ok_bind_iff.mp h with ⟨parts, -, h⟩
    split at h
    · cases h
    · rename_i hcount
      cases hreals : parts.mapM Value.toReal with
      | error e =>
        rw [hreals] at h
        cases h
      | ok l =>
        rw [hreals] at h
        cases h
        rw [not_not] at hcount
        exact Or.inr ⟨hnull, l, rfl, (length_of_mapM_eq_ok hreals).trans hcount⟩

/-- A pair is missing when its value is nothing, and only then. -/
theorem pair_eq_ok_none_iff : pair entries label key default = .ok none ↔
    get entries key default = .null := by
  unfold pair
  constructor
  · intro h
    rcases ok_bind_iff.mp h with ⟨found, hfound, h⟩
    rcases reals_eq_ok hfound with ⟨hnull, -⟩ | ⟨-, l, rfl, hlength⟩
    · exact hnull
    · rcases List.length_eq_two.mp hlength with ⟨a, b, rfl⟩
      exact absurd (Except.ok.inj h) (Option.some_ne_none _)
  · intro h
    rw [h]
    rfl

/-- What is missing has its default. -/
theorem get_eq_null_iff {values : List Value} :
    get entries key (.items values) = .null ↔ Value.lookup key entries = some .null := by
  unfold get
  cases hfound : Value.lookup key entries with
  | none => simp
  | some value => simp

end Section

namespace DecodeSettings

/-- The numbers of bits that samples of a developed picture may have. -/
def IsDepth (bits : Int) : Prop := bits = 8 ∨ bits = 16

/-- The ways to treat what is too bright. -/
def IsHighlightMode (mode : Int) : Prop := 0 ≤ mode ∧ mode ≤ 9

/-- The turns of a picture, unless the camera's own is kept. -/
def IsFlip (flip : Option Int) : Prop := ∀ turn ∈ flip, turn ∈ [0, 3, 5, 6]

/-- The constraints on settings of the declared types. -/
structure Legal (s : DecodeSettings Declared) : Prop where
  demosaic : ∃ algorithm, Demosaic.ofName? (upperCase s.demosaic) = some algorithm
  outputColor : ∃ space, ColorSpace.ofName? s.outputColor = some space
  outputBps : IsDepth s.outputBps
  highlightMode : IsHighlightMode s.highlightMode
  userFlip : IsFlip s.userFlip

variable {s : DecodeSettings Declared}

theorem demosaic_toGiven : s.toGiven.demosaic = .text s.demosaic := rfl

theorem outputColor_toGiven : s.toGiven.outputColor = .text s.outputColor := rfl

theorem algorithm_toGiven_eq_ok {algorithm : Demosaic} : s.toGiven.algorithm = .ok algorithm ↔
    Demosaic.ofName? (upperCase s.demosaic) = some algorithm := by
  unfold DecodeSettings.algorithm
  rw [demosaic_toGiven]
  cases hname : Demosaic.ofName? (upperCase s.demosaic) <;> simp [hname]

theorem space_toGiven_eq_ok {space : ColorSpace} : s.toGiven.space = .ok space ↔
    ColorSpace.ofName? s.outputColor = some space := by
  unfold DecodeSettings.space
  rw [outputColor_toGiven]
  cases hname : ColorSpace.ofName? s.outputColor <;> simp [hname, Value.asText, bind, Except.bind]

theorem isDepth_iff {bits : Int} : Value.isOneOf (.whole bits) [8, 16] = true ↔ IsDepth bits := by
  rw [Value.isOneOf_whole]
  simp [IsDepth]

theorem isHighlightMode_iff {mode : Int} :
    (decide (mode < 0) || decide (9 < mode)) = false ↔ IsHighlightMode mode := by
  rw [Bool.or_eq_false_iff, decide_eq_false_iff_not, decide_eq_false_iff_not, Int.not_lt,
    Int.not_lt]
  rfl

/-- The check of a turn is the last step, and lets pass that there is none. -/
theorem isFlip_iff {flip : Option Int} :
    (match Declared.toGiven .wholeOption flip with
      | .null => Except.ok ()
      | turn => if Value.isOneOf turn [0, 3, 5, 6] then .ok () else .error Failure.userFlip) =
        .ok () ↔ IsFlip flip := by
  cases flip with
  | none =>
    refine ⟨fun _ => ?_, fun _ => rfl⟩
    rintro turn ⟨⟩
  | some turn =>
    show (if Value.isOneOf (.whole turn) [0, 3, 5, 6] then Except.ok ()
      else .error Failure.userFlip) = .ok () ↔ _
    split
    · rename_i h
      refine ⟨fun _ => ?_, fun _ => rfl⟩
      rintro _ ⟨⟩
      exact Value.isOneOf_whole.mp h
    · rename_i h
      refine iff_of_false (fun heq => by cases heq) fun hflip => h ?_
      exact Value.isOneOf_whole.mpr (hflip turn rfl)

/-- The check finds just the constraints. -/
theorem check_toGiven_iff : s.toGiven.check = .ok () ↔ s.Legal := by
  constructor
  · intro h
    rcases ok_bind_iff.mp h with ⟨algorithm, halgorithm, h⟩
    rcases ok_bind_iff.mp h with ⟨space, hspace, h⟩
    split at h
    · cases h
    · rename_i hdepth
      rw [Bool.not_eq_true', Bool.not_eq_false] at hdepth
      rcases ok_bind_iff.mp h with ⟨mode, hmode, h⟩
      cases hmode
      split at h
      · cases h
      · rename_i hmode
        rw [Bool.not_eq_true] at hmode
        exact {
          demosaic := ⟨algorithm, algorithm_toGiven_eq_ok.mp halgorithm⟩
          outputColor := ⟨space, space_toGiven_eq_ok.mp hspace⟩
          outputBps := isDepth_iff.mp hdepth
          highlightMode := isHighlightMode_iff.mp hmode
          userFlip := isFlip_iff.mp h }
  · rintro ⟨⟨algorithm, halgorithm⟩, ⟨space, hspace⟩, hdepth, hmode, hflip⟩
    refine ok_bind_iff.mpr ⟨algorithm, algorithm_toGiven_eq_ok.mpr halgorithm, ?_⟩
    refine ok_bind_iff.mpr ⟨space, space_toGiven_eq_ok.mpr hspace, ?_⟩
    have hbits : Value.isOneOf s.toGiven.outputBps [8, 16] = true := isDepth_iff.mpr hdepth
    rw [if_neg (by rw [hbits]; exact Bool.false_ne_true)]
    refine ok_bind_iff.mpr ⟨s.highlightMode, rfl, ?_⟩
    rw [if_neg (by rw [isHighlightMode_iff.mpr hmode]; exact Bool.false_ne_true)]
    exact isFlip_iff.mpr hflip

/-- The parts of a pair are taken as they are. -/
theorem exists_asTuple_iff {pair : Option (Double × Double)} :
    (∃ value, asTuple (Declared.toGiven .pairOption pair) = .ok value) ↔
      ∃ curve, pair = some curve := by
  rcases pair with _ | ⟨a, b⟩
  · refine iff_of_false ?_ ?_
    · rintro ⟨value, h⟩
      cases h
    · rintro ⟨curve, h⟩
      cases h
  · exact iff_of_true ⟨_, rfl⟩ ⟨_, rfl⟩

/-- What may be missing is prepared in any case. -/
theorem exists_prepared_pair (pair : Option (Double × Double)) :
    ∃ value, prepared asTuple (Declared.toGiven .pairOption pair) = .ok value := by
  rcases pair with _ | ⟨a, b⟩ <;> exact ⟨_, rfl⟩

theorem exists_prepared_quad (quad : Option (Double × Double × Double × Double)) :
    ∃ value, prepared asReals (Declared.toGiven .quadOption quad) = .ok value := by
  rcases quad with _ | ⟨a, b, c, d⟩ <;> exact ⟨_, rfl⟩

/-- The options always take the gamma curve apart, so it has to be there. -/
theorem exists_options_iff (h : s.Legal) :
    (∃ options, s.toGiven.options = .ok options) ↔ ∃ curve, s.gamma = some curve := by
  rcases h with ⟨⟨algorithm, halgorithm⟩, ⟨space, hspace⟩, -, -, -⟩
  rcases exists_prepared_quad s.userWb with ⟨balance, hbalance⟩
  rcases exists_prepared_pair s.chromaticAberration with ⟨aberration, haberration⟩
  refine Iff.trans ?_ exists_asTuple_iff
  unfold options
  simp only [ok_bind_iff]
  constructor
  · rintro ⟨_, _, -, _, -, _, -, gamma, hgamma, -⟩
    exact ⟨gamma, hgamma⟩
  · rintro ⟨gamma, hgamma⟩
    exact ⟨_, space, space_toGiven_eq_ok.mpr hspace, algorithm,
      algorithm_toGiven_eq_ok.mpr halgorithm, s.highlightMode, rfl, gamma, hgamma, balance,
      hbalance, aberration, haberration, rfl⟩

/-- Settings of a section have passed the check, and their gamma curve is a pair that was read. -/
theorem parse_eq_ok {raw : Value} (h : parse raw = .ok s) :
    s.toGiven.check = .ok () ∧ ∃ entries, sectionEntries raw = .ok entries ∧
      ∃ gamma : Option (Double × Double), s.gamma = gamma ∧
        Section.pair entries "decode.gamma" "gamma"
          (.items [.real standardGamma.1, .real standardGamma.2]) = .ok gamma := by
  unfold parse at h
  simp only [ok_bind_iff] at h
  rcases h with ⟨_, -, entries, hentries, _, -, _, -, _, -, _, -, _, -, _, -, gamma, hgamma, _, -,
    _, -, _, -, _, -, _, -, _, -, _, -, _, -, _, -, _, -, _, hcheck, h⟩
  cases h
  exact ⟨hcheck, entries, hentries, gamma, rfl, hgamma⟩

/-- What settings from a section can be used for. They meet every constraint. Their gamma curve is
    missing when the section has an entry of nothing for it, and then they have no options for the
    RAW library; otherwise they have. -/
theorem usable_of_parse (raw : Value) (s : DecodeSettings Declared) (h : parse raw = .ok s) :
    s.Legal ∧ ∃ entries, sectionEntries raw = .ok entries ∧
      (s.gamma = none ↔ Value.lookup "gamma" entries = some .null) ∧
      ((∃ options, s.toGiven.options = .ok options) ↔
        Value.lookup "gamma" entries ≠ some .null) := by
  rcases parse_eq_ok h with ⟨hcheck, entries, hentries, gamma, hkept, hgamma⟩
  have hlegal := check_toGiven_iff.mp hcheck
  -- The standard curve is there, so only an entry takes the curve away.
  have hmissing : gamma = none ↔ Value.lookup "gamma" entries = some .null := by
    rw [← Section.get_eq_null_iff, ← Section.pair_eq_ok_none_iff, hgamma, Except.ok.injEq]
  refine ⟨hlegal, entries, hentries, by rw [hkept]; exact hmissing, ?_⟩
  rw [exists_options_iff hlegal, ne_eq, ← hmissing, hkept]
  exact Option.ne_none_iff_exists'.symm

/-- A section with a curve of its own. -/
theorem usable_of_parse_curve :
    ∃ s, parse (.table [(.text "gamma", .items [.real 1, .text " 4_5 "]),
        (.text "demosaic", .text "dcb"), (.text "user_flip", .text "6")]) = .ok s ∧
      s.Legal ∧ ∃ options, s.toGiven.options = .ok options := by
  have hparse : ∃ s, parse (.table [(.text "gamma", .items [.real 1, .text " 4_5 "]),
      (.text "demosaic", .text "dcb"), (.text "user_flip", .text "6")]) = .ok s := ⟨_, rfl⟩
  rcases hparse with ⟨s, hs⟩
  rcases usable_of_parse _ s hs with ⟨hlegal, entries, hentries, -, hoptions⟩
  cases hentries
  exact ⟨s, hs, hlegal, hoptions.mpr fun h => by cases h⟩

/-- A section that takes the curve away is read, and its settings cannot be used. -/
theorem parse_gamma_null :
    ∃ s, parse (.table [(.text "gamma", .null)]) = .ok s ∧ s.gamma = none ∧
      s.toGiven.options = .error .wrongType :=
  ⟨_, rfl, rfl, rfl⟩

end DecodeSettings

end Darkroom
