import Darkroom.Camera.Report
import Darkroom.Command.Run
import Darkroom.Proofs.Files.Steps
import Darkroom.Proofs.Json.RealTexts
import Darkroom.Proofs.Numeric.Arithmetic

/-!
# Exposure Numbers

What the numbers of an exposure can be, whichever way a camera has said them.

A number is kept unless it is zero or less. Of finite numbers, this leaves those that are greater
than zero, which is what an exposure can use. But not-a-number is neither zero nor less, and neither
is infinity, so both are kept where they are read. Texts such as `nan` and `inf` are read as these,
and so are the words for them in a report. Of everything that is written about an exposure, only the
exposure time of not-a-number fails.

## Main definitions

* `Exposure`: The four numbers of an exposure.
* `Exposure.of`, `Exposure.inTags`, `Exposure.inRow`: What is said of them, and where.
* `Binary.IsUsable`: A finite number that is greater than zero.
* `Exif.Says`: Values from which it was read what a camera says.

## Theorems

* `Binary.not_le_zero_iff`: What is neither zero nor less.
* `Exif.Says.of_eq`: Every number is read from its own value.
* `Exif.Says.none_or_usable_iff`: When a number can be used, or is not said.
* `Exif.Says.exposures_usable_iff`: Which numbers of an exposure can be used.
-/

namespace Darkroom

namespace Binary

variable {f : BinaryFormat}

/-- A finite number that is greater than zero. -/
def IsUsable (x : Binary f) : Prop := x.isFinite = true ∧ 0 < x

theorem not_isUsable_nan : ¬(nan : Binary f).IsUsable := fun h => by cases h.1

theorem not_isUsable_infinite (s : Bool) : ¬(infinite s : Binary f).IsUsable :=
  fun h => by cases h.1

/-- What is neither zero nor less can be used, is not a number, or is infinite. -/
theorem not_le_zero_iff (x : Binary f) :
    ¬x ≤ 0 ↔ x.IsUsable ∨ x = nan ∨ x = infinite false := by
  -- Zero is a finite number, so each kind of number is compared with it by one equation.
  have hzero : (0 : Binary f).Denotes 0 := denotes_ofNat_zero
  rcases hzero.exists_finite with ⟨t, n, d, hd, hfinite, -⟩
  cases x with
  | nan =>
    refine iff_of_true ?_ (Or.inr (Or.inl rfl))
    rw [hfinite]
    exact Bool.false_ne_true
  | infinite s =>
    cases s with
    | false =>
      refine iff_of_true ?_ (Or.inr (Or.inr rfl))
      rw [hfinite]
      exact Bool.false_ne_true
    | true =>
      refine iff_of_false (fun h => h ?_) ?_
      · rw [hfinite]
        rfl
      · rintro (h | h | h)
        · exact not_isUsable_infinite true h
        · cases h
        · cases h
  | finite s m e h =>
    have hx : (finite s m e h : Binary f).Denotes _ := denotes_finite s m e h
    rw [hx.le_iff hzero, not_le]
    unfold IsUsable
    rw [hzero.lt_iff hx]
    simp [isFinite]

end Binary

/-- The numbers of an exposure. -/
inductive Exposure where
  | iso
  | shutter
  | aperture
  | focalLength

namespace Exposure

/-- What a camera says of a number. -/
def of (e : Exif) : Exposure → Option Double
  | iso => e.iso
  | shutter => e.shutter
  | aperture => e.aperture
  | focalLength => e.focalLength

/-- The value of a number among tags. -/
def inTags (tags : Exif.Tags) : Exposure → TagValue
  | iso => Exif.tagValueOr tags "EXIF ISOSpeedRatings" "EXIF PhotographicSensitivity"
  | shutter => Exif.tagValue tags "EXIF ExposureTime"
  | aperture => Exif.tagValue tags "EXIF FNumber"
  | focalLength => Exif.tagValue tags "EXIF FocalLength"

/-- The name of a number in reports. -/
def name : Exposure → String
  | iso => "ISO"
  | shutter => "ExposureTime"
  | aperture => "FNumber"
  | focalLength => "FocalLength"

/-- The value of a number in the first table of a report. -/
def inRow (entries : List (Value × Value)) (number : Exposure) : TagValue :=
  .ofValue ((Value.lookup number.name entries).getD .null)

end Exposure

namespace Exif

/-- What a camera says has been read from values: of tags, or of a table in a report. -/
inductive Says : (Exposure → TagValue) → Exif → Prop where
  | tags {tags e} (h : ofTags tags = .ok e) : Says (Exposure.inTags tags) e
  | row {entries e} (h : ofRow (.table entries) = .ok e) : Says (Exposure.inRow entries) e

theorem of_eq_of_ofValues (value : Exposure → TagValue) {make model timestamp : TagValue} {e : Exif}
    (h : ofValues make model timestamp (value .iso) (value .shutter) (value .aperture)
      (value .focalLength) = .ok e) (number : Exposure) :
    ∃ x, (value number).number? = .ok x ∧ number.of e = TagValue.positive? x := by
  unfold ofValues at h
  simp only [ok_bind_iff] at h
  rcases h with ⟨_, -, _, -, _, -, _, ⟨iso, hiso, h1⟩, _, ⟨shutter, hshutter, h2⟩,
    _, ⟨aperture, haperture, h3⟩, _, ⟨focal, hfocal, h4⟩, h⟩
  cases h1
  cases h2
  cases h3
  cases h4
  cases h
  cases number with
  | iso => exact ⟨iso, hiso, rfl⟩
  | shutter => exact ⟨shutter, hshutter, rfl⟩
  | aperture => exact ⟨aperture, haperture, rfl⟩
  | focalLength => exact ⟨focal, hfocal, rfl⟩

variable {value : Exposure → TagValue} {e : Exif}

/-- Each number is read from its own value, and dropped when it is zero or less. -/
theorem Says.of_eq (h : Says value e) (number : Exposure) :
    ∃ x, (value number).number? = .ok x ∧ number.of e = TagValue.positive? x := by
  cases h with
  | tags h => exact of_eq_of_ofValues (Exposure.inTags _) h number
  | row h => exact of_eq_of_ofValues (Exposure.inRow _) h number

end Exif

/-- A number that is kept is neither zero nor less. -/
theorem TagValue.positive?_eq_some_iff {x : Option Double} {y : Double} :
    positive? x = some y ↔ x = some y ∧ (y.IsUsable ∨ y = .nan ∨ y = .infinite false) := by
  unfold positive?
  rw [Option.filter_eq_some_iff, ← Binary.not_le_zero_iff]
  simp

/-- An exposure time can be written unless it is not a number. -/
theorem exists_optionalShutter_iff (x : Option Double) :
    (∃ text, optionalShutter x = .ok text) ↔ x ≠ some .nan := by
  unfold optionalShutter
  cases x with
  | none => exact iff_of_true ⟨none, rfl⟩ nofun
  | some x =>
    cases x with
    | nan =>
      refine iff_of_false ?_ fun h => h rfl
      rintro ⟨text, h⟩
      cases h
    | infinite s =>
      cases s with
      | false => exact iff_of_true ⟨_, rfl⟩ nofun
      | true => exact iff_of_true ⟨_, rfl⟩ nofun
    | finite s m e h =>
      refine iff_of_true ?_ nofun
      show ∃ text, shutterText (.real (.finite s m e h)) (.whole shutterBound) = .ok text
      unfold shutterText
      split
      · exact ⟨none, rfl⟩
      · split
        · exact ⟨_, rfl⟩
        · exact ⟨_, rfl⟩

namespace Exif

variable {value : Exposure → TagValue} {e : Exif}

/-- What is said of a number is what was read, and is neither zero nor less. -/
theorem Says.of_eq_some_iff (h : Says value e) (number : Exposure) (x : Double) :
    number.of e = some x ↔ (value number).number? = .ok (some x) ∧
      (x.IsUsable ∨ x = .nan ∨ x = .infinite false) := by
  rcases h.of_eq number with ⟨read, hread, hof⟩
  rw [hof, TagValue.positive?_eq_some_iff, hread, Except.ok.injEq]

/-- What is not a number, or infinite, is said when it is read. -/
theorem Says.of_eq_special_iff (h : Says value e) (number : Exposure) {special : Double}
    (hspecial : special = .nan ∨ special = .infinite false) :
    number.of e = some special ↔ (value number).number? = .ok (some special) :=
  (h.of_eq_some_iff number special).trans (and_iff_left (Or.inr hspecial))

/-- A number can be used, or is not said, unless it is not a number or infinite where it is read. -/
theorem Says.none_or_usable_iff (h : Says value e) (number : Exposure) :
    (number.of e = none ∨ ∃ x, number.of e = some x ∧ x.IsUsable) ↔
      (value number).number? ≠ .ok (some .nan) ∧
        (value number).number? ≠ .ok (some (.infinite false)) := by
  rw [ne_eq, ne_eq, ← h.of_eq_special_iff number (Or.inl rfl),
    ← h.of_eq_special_iff number (Or.inr rfl)]
  constructor
  · intro hgood
    refine ⟨fun hof => ?_, fun hof => ?_⟩
    · rcases hgood with hnone | ⟨x, hx, husable⟩
      · cases hnone.symm.trans hof
      · cases hx.symm.trans hof
        exact Binary.not_isUsable_nan husable
    · rcases hgood with hnone | ⟨x, hx, husable⟩
      · cases hnone.symm.trans hof
      · cases hx.symm.trans hof
        exact Binary.not_isUsable_infinite false husable
  · rintro ⟨hnotNan, hnotInfinite⟩
    cases hof : number.of e with
    | none => exact Or.inl rfl
    | some x =>
      refine Or.inr ⟨x, rfl, ?_⟩
      rcases ((h.of_eq_some_iff number x).mp hof).2 with husable | rfl | rfl
      · exact husable
      · exact absurd hof hnotNan
      · exact absurd hof hnotInfinite

/-- A number that can be said is written as a word exactly when that word is read. -/
theorem Says.write_eq_iff (h : Says value e) (number : Exposure) (layout : Json.Layout)
    {word : String} {special : Double} (hword : ∀ x, Json.realText x = word ↔ x = special)
    (hnull : "null" ≠ word) (hspecial : special = .nan ∨ special = .infinite false) :
    Json.write layout (.optionalReal (number.of e)) = .ok word ↔
      (value number).number? = .ok (some special) := by
  rw [← h.of_eq_special_iff number hspecial]
  cases number.of e with
  | none => exact iff_of_false (fun hnone => hnull (Except.ok.inj hnone)) nofun
  | some x =>
    rw [Option.some_inj, ← hword x]
    exact ⟨fun hx => Except.ok.inj hx, fun hx => congrArg Except.ok hx⟩

/-- Which numbers of an exposure can be used: all but those that are not a number or infinite where
    they are read. A number that can be used is said as it was read. The exposure time can be
    written unless it is not a number where it is read, and a record holds `NaN` or `Infinity` for a
    number just where this was read. -/
theorem Says.exposures_usable_iff (h : Says value e) :
    (∀ number : Exposure,
      (number.of e = none ∨ ∃ x, number.of e = some x ∧ x.IsUsable) ↔
        (value number).number? ≠ .ok (some .nan) ∧
          (value number).number? ≠ .ok (some (.infinite false))) ∧
    (∀ (number : Exposure) (x : Double), x.IsUsable →
      (number.of e = some x ↔ (value number).number? = .ok (some x))) ∧
    ((∃ text, optionalShutter e.shutter = .ok text) ↔
      (value .shutter).number? ≠ .ok (some .nan)) ∧
    ∀ (number : Exposure) (layout : Json.Layout),
      (Json.write layout (.optionalReal (number.of e)) = .ok "NaN" ↔
        (value number).number? = .ok (some .nan)) ∧
      (Json.write layout (.optionalReal (number.of e)) = .ok "Infinity" ↔
        (value number).number? = .ok (some (.infinite false))) := by
  refine ⟨h.none_or_usable_iff, ?_, ?_, ?_⟩
  · intro number x hx
    rw [h.of_eq_some_iff number x, and_iff_left (Or.inl hx)]
  · rw [exists_optionalShutter_iff, ne_eq, ne_eq, ← h.of_eq_special_iff .shutter (Or.inl rfl)]
    rfl
  · intro number layout
    exact ⟨h.write_eq_iff number layout Json.realText_eq_nan_iff (by decide) (Or.inl rfl),
      h.write_eq_iff number layout Json.realText_eq_infinity_iff (by decide) (Or.inr rfl)⟩

/-- Tags that give nothing but an exposure time. -/
def timeTags (time : Double) : Tags := [("EXIF ExposureTime", .plain (.real time))]

theorem ofTags_timeTags (time : Double) :
    ofTags (timeTags time) = .ok { empty with shutter := TagValue.positive? (some time) } := rfl

/-- A quarter of a second is usable, and is written. -/
theorem exposures_usable_iff_quarter :
    Says (Exposure.inTags (timeTags (1 / 4))) { empty with shutter := some (1 / 4) } ∧
      ((Exposure.shutter.of { empty with shutter := some (1 / 4) } = none ∨
        ∃ x, Exposure.shutter.of { empty with shutter := some (1 / 4) } = some x ∧ x.IsUsable)) ∧
      ∃ text, optionalShutter (some (1 / 4)) = .ok text := by
  have hfinite : (1 / 4 : Double).isFinite = true := by decide +kernel
  have hkept : TagValue.positive? (some (1 / 4)) = some (1 / 4 : Double) :=
    TagValue.positive?_eq_some_iff.mpr ⟨rfl, Or.inl ⟨hfinite, by decide +kernel⟩⟩
  have hsaid :
      Says (Exposure.inTags (timeTags (1 / 4))) { empty with shutter := some (1 / 4) } := by
    have hread := ofTags_timeTags (1 / 4)
    rw [hkept] at hread
    exact .tags hread
  have hread : (Exposure.inTags (timeTags (1 / 4)) .shutter).number? = .ok (some (1 / 4)) := rfl
  have hnan : (1 / 4 : Double) ≠ .nan := by
    intro h
    rw [h] at hfinite
    cases hfinite
  have hinfinite : (1 / 4 : Double) ≠ .infinite false := by
    intro h
    rw [h] at hfinite
    cases hfinite
  have hall := hsaid.exposures_usable_iff
  refine ⟨hsaid, (hall.1 .shutter).mpr ?_, hall.2.2.1.mpr ?_⟩
  · rw [hread]
    simpa using ⟨hnan, hinfinite⟩
  · rw [hread]
    simpa using hnan

/-- An exposure time that is the text of not-a-number is kept, and cannot be written. -/
theorem exposure_time_of_nan :
    ofTags [("EXIF ExposureTime", .plain (.text "nan"))] = .ok { empty with shutter := some .nan } ∧
      ¬(Binary.nan : Double).IsUsable ∧
      optionalShutter (some .nan) = .error .nanToFraction := by
  refine ⟨?_, Binary.not_isUsable_nan, rfl⟩
  with_unfolding_all rfl

end Exif

end Darkroom
