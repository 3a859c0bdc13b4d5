import Darkroom.Camera.Container
import Darkroom.Environment
import Darkroom.Proofs.Camera.TagNumbers
import Darkroom.Proofs.Numeric.LowBytes
import Mathlib.Data.List.Basic
import Mathlib.Data.List.ReduceOption
import Mathlib.Data.Rat.Lemmas

/-!
# Tags can be Read

What is said of a picture is read from seven values of its tags, and reading fails only where one of
them has a number that is too large, or a text that cannot be shown. So it depends on the library
that finds the tags whether that happens.

It does not with the reader of this program, whatever the bytes of a file are. The numbers of its
tags take four bytes at most, which is far less than a real number holds, and reducing a fraction
does not make its numbers larger. Their texts have been shown already when the file was read: a tag
that cannot be shown makes the file one without tags.

## Main definitions

* `TagValue.ReadsLabel`: A value whose text is read without a failure.
* `TagValue.IsLegible`: A value that is read without a failure, whatever it is read for.
* `Exif.Tags.AreRead`: Tags of which the seven values are read.
* `Environment.ReadsTags`: The tags of a file are read, if the library finds any.
* `Tiff.FieldType.IsNarrow`: A type whose whole numbers take four bytes at most.

## Theorems

* `Exif.exists_ofTags_iff`: Which tags can be read.
* `Tiff.isLegible_of_tags?`: The values of the tags of a file.
* `Environment.exists_exifOfBytes_iff`: When it is found out what a file says.
* `Environment.readsTags_of_read?`: The reader of this program.
-/

namespace Darkroom

namespace TagValue

/-- The text of a value is read, or it is found to have none. -/
def ReadsLabel (value : TagValue) : Prop := ∃ label, value.label? = .ok label

/-- A value can be read, as a text and as a number. -/
def IsLegible (value : TagValue) : Prop := value.ReadsLabel ∧ value.ReadsNumber

theorem isLegible_null : (plain .null).IsLegible := ⟨⟨none, rfl⟩, none, rfl⟩

/-- A tag has its text already. -/
theorem readsLabel_tag (values : TagValue) (text : String) : (tag values text).ReadsLabel :=
  ⟨_, rfl⟩

/-- A tag has the number of its first value, if that is plain or a fraction. -/
theorem readsNumber_tag {values : List TagValue} (h : ∀ value ∈ values, value.ReadsNumber)
    (text : String) : (tag (items values) text).ReadsNumber := by
  cases values with
  | nil => exact ⟨none, rfl⟩
  | cons value rest =>
    cases value with
    | plain value => exact h (plain value) List.mem_cons_self
    | ratio num den => exact h (ratio num den) List.mem_cons_self
    -- Of what is nested deeper no number is read, so nothing has to be known of it.
    | items inner => exact ⟨none, rfl⟩
    | tag inner text => exact ⟨none, rfl⟩

end TagValue

/-- What is found under a name is there. -/
theorem mem_of_lookup {α β : Type} [BEq α] [LawfulBEq α] {entries : List (α × β)} {name : α}
    {value : β} (h : entries.lookup name = some value) : (name, value) ∈ entries := by
  induction entries with
  | nil => cases h
  | cons entry rest ih =>
    rw [List.lookup_cons] at h
    split at h
    · next hname =>
      cases h
      rw [eq_of_beq hname]
      exact List.mem_cons_self
    · exact List.mem_cons_of_mem entry (ih h)

namespace Exif

/-- What is said is read from its seven values, each for itself. -/
theorem exists_ofValues_iff (make model timestamp iso shutter aperture focalLength : TagValue) :
    (∃ e, ofValues make model timestamp iso shutter aperture focalLength = .ok e) ↔
      (make.ReadsLabel ∧ model.ReadsLabel ∧ timestamp.ReadsLabel) ∧
        iso.ReadsNumber ∧ shutter.ReadsNumber ∧ aperture.ReadsNumber ∧
          focalLength.ReadsNumber := by
  unfold ofValues
  simp only [ok_bind_iff]
  constructor
  · rintro ⟨e, a, ha, b, hb, c, hc, -, ⟨x, hx, -⟩, -, ⟨y, hy, -⟩, -, ⟨z, hz, -⟩,
      -, ⟨w, hw, -⟩, -⟩
    exact ⟨⟨⟨a, ha⟩, ⟨b, hb⟩, c, hc⟩, ⟨x, hx⟩, ⟨y, hy⟩, ⟨z, hz⟩, w, hw⟩
  · rintro ⟨⟨⟨a, ha⟩, ⟨b, hb⟩, c, hc⟩, ⟨x, hx⟩, ⟨y, hy⟩, ⟨z, hz⟩, w, hw⟩
    exact ⟨_, a, ha, b, hb, c, hc, _, ⟨x, hx, rfl⟩, _, ⟨y, hy, rfl⟩, _, ⟨z, hz, rfl⟩,
      _, ⟨w, hw, rfl⟩, rfl⟩

/-- The values of tags that are looked at are read: three of them as texts, four as numbers. -/
structure Tags.AreRead (tags : Tags) : Prop where
  make : (tagValue tags "Image Make").ReadsLabel
  model : (tagValue tags "Image Model").ReadsLabel
  timestamp : (tagValueOr tags "EXIF DateTimeOriginal" "Image DateTime").ReadsLabel
  iso : (tagValueOr tags "EXIF ISOSpeedRatings" "EXIF PhotographicSensitivity").ReadsNumber
  shutter : (tagValue tags "EXIF ExposureTime").ReadsNumber
  aperture : (tagValue tags "EXIF FNumber").ReadsNumber
  focalLength : (tagValue tags "EXIF FocalLength").ReadsNumber

/-- Tags can be read when the values that are looked at can. -/
theorem exists_ofTags_iff (tags : Tags) : (∃ e, ofTags tags = .ok e) ↔ tags.AreRead := by
  refine (exists_ofValues_iff _ _ _ _ _ _ _).trans ?_
  constructor
  · rintro ⟨⟨hmake, hmodel, htimestamp⟩, hiso, hshutter, haperture, hfocal⟩
    exact ⟨hmake, hmodel, htimestamp, hiso, hshutter, haperture, hfocal⟩
  · rintro ⟨hmake, hmodel, htimestamp, hiso, hshutter, haperture, hfocal⟩
    exact ⟨⟨hmake, hmodel, htimestamp⟩, hiso, hshutter, haperture, hfocal⟩

theorem isLegible_tagValue {tags : Tags} (h : ∀ tag ∈ tags, tag.2.IsLegible) (name : String) :
    (tagValue tags name).IsLegible := by
  unfold tagValue
  cases hlookup : tags.lookup name with
  | none => exact TagValue.isLegible_null
  | some value => exact h (name, value) (mem_of_lookup hlookup)

theorem isLegible_tagValueOr {tags : Tags} (h : ∀ tag ∈ tags, tag.2.IsLegible)
    (name other : String) : (tagValueOr tags name other).IsLegible := by
  show (if (tagValue tags name).isGiven then _ else _ : TagValue).IsLegible
  split
  · exact isLegible_tagValue h name
  · exact isLegible_tagValue h other

/-- Tags can be read when all of their values can. -/
theorem areRead_of_isLegible {tags : Tags} (h : ∀ tag ∈ tags, tag.2.IsLegible) : tags.AreRead := by
  have hvalue := isLegible_tagValue h
  have hvalueOr := isLegible_tagValueOr h
  exact {
    make := (hvalue _).1
    model := (hvalue _).1
    timestamp := (hvalueOr _ _).1
    iso := (hvalueOr _ _).2
    shutter := (hvalue _).2
    aperture := (hvalue _).2
    focalLength := (hvalue _).2 }

end Exif

theorem length_toList_loop (bytes : ByteArray) (i : Nat) (r : List UInt8) :
    (ByteArray.toList.loop bytes i r).length = r.length + (bytes.size - i) := by
  fun_induction ByteArray.toList.loop bytes i r with
  | case1 i r h ih =>
    rw [ih, List.length_cons]
    omega
  | case2 i r h =>
    rw [List.length_reverse]
    omega

theorem length_toList (bytes : ByteArray) : bytes.toList.length = bytes.size := by
  unfold ByteArray.toList
  rw [length_toList_loop]
  simp

namespace Tiff

variable {f : Tiff}

theorem length_slice_le (f : Tiff) (place length : Nat) :
    (f.slice place length).length ≤ length := by
  unfold slice
  rw [length_toList, ByteArray.size_extract]
  omega

theorem natural_lt (f : Tiff) (place length : Nat) : f.natural place length < 256 ^ length := by
  have hlt (bytes : List UInt8) (h : bytes.length ≤ length) : ofLowBytes bytes < 256 ^ length :=
    (ofLowBytes_lt bytes).trans_le (Nat.pow_le_pow_right (by decide) h)
  have hlength := length_slice_le f place length
  unfold natural whole?
  by_cases hcut : (f.slice place length).length < length
  · rw [if_pos hcut]
    exact Nat.pow_pos (by decide)
  · rw [if_neg hcut]
    refine hlt _ ?_
    split
    · rwa [List.length_reverse]
    · exact hlength

/-- With a sign or without, a number is no larger than its bytes have room for. -/
theorem abs_number_le (f : Tiff) (isSigned : Bool) (place length : Nat) :
    |f.number isSigned place length| ≤ 256 ^ length := by
  have hlt : (f.natural place length : ℤ) < 256 ^ length := by
    exact_mod_cast natural_lt f place length
  have hroom : (twoTo (8 * length) : ℤ) = 256 ^ length := by
    unfold twoTo
    rw [Nat.pow_eq, pow_mul]
    norm_num
  have hnatural : (0 : ℤ) ≤ f.natural place length := Int.natCast_nonneg _
  show |if _ then (f.natural place length : ℤ) - twoTo (8 * length) else f.natural place length| ≤ _
  rw [hroom, abs_le]
  split
  · -- The upper half stands for negative numbers.
    constructor <;> linarith
  · constructor <;> linarith

/-- A whole number of four bytes is not too large. -/
theorem fitsReal_number (f : Tiff) (isSigned : Bool) (place : Nat) {length : Nat}
    (h : length ≤ 4) : FitsReal (f.number isSigned place length) := by
  refine fitsReal_of_abs_le ((abs_number_le f isSigned place length).trans ?_)
  calc (256 : ℤ) ^ length ≤ 256 ^ 4 := pow_le_pow_right₀ (by decide) h
    _ ≤ 2 ^ 53 := by decide

/-- In lowest terms the numbers of a fraction are no larger. -/
theorem readsNumber_reduced {num den : ℤ} (hnum : |num| ≤ 2 ^ 53) (hden : |den| ≤ 2 ^ 53) :
    (reduced num den).ReadsNumber := by
  unfold reduced
  by_cases hzero : den = 0
  · rw [if_pos hzero]
    exact TagValue.readsNumber_ratio (fitsReal_of_abs_le hnum) (fitsReal_of_abs_le hden)
  · rw [if_neg hzero]
    refine TagValue.readsNumber_ratio (fitsReal_of_abs_le ?_) (fitsReal_of_abs_le ?_)
    · -- What divides a number other than zero is no larger, but zero is divided by everything.
      rw [← Rat.divInt_eq_div]
      by_cases hnone : num = 0
      · rw [hnone, Rat.zero_divInt]
        decide
      · exact (Int.le_of_dvd (abs_pos.mpr hnone)
          ((abs_dvd_abs _ _).mpr (Rat.num_dvd num hzero))).trans hnum
    · rw [← Rat.divInt_eq_div]
      exact (Int.le_of_dvd (abs_pos.mpr hzero)
        ((abs_dvd_abs _ _).mpr (Rat.den_dvd num den))).trans hden

/-- A type whose whole numbers take four bytes at most. -/
def FieldType.IsNarrow : FieldType → Prop
  | natural bytes | signed bytes => bytes ≤ 4
  | text | ratio _ | single | double => True

theorem FieldType.isNarrow_of_ofNumber? {n : Nat} {type : FieldType}
    (h : FieldType.ofNumber? n = some type) : type.IsNarrow := by
  unfold FieldType.ofNumber? at h
  split at h
  all_goals cases h
  all_goals simp [IsNarrow]

theorem readsNumber_of_value? {place : Nat} {type : FieldType} (htype : type.IsNarrow)
    {value : TagValue} (h : f.value? place type = some value) : value.ReadsNumber := by
  have hreal (x : Double) : (TagValue.plain (.tuple [.real x])).ReadsNumber := ⟨none, rfl⟩
  have hroom (place : Nat) (isSigned : Bool) : |f.number isSigned place 4| ≤ 2 ^ 53 :=
    (abs_number_le f isSigned place 4).trans (by decide)
  cases type with
  | natural bytes =>
    cases h
    exact TagValue.readsNumber_whole (fitsReal_number f false place htype)
  | signed bytes =>
    cases h
    exact TagValue.readsNumber_whole (fitsReal_number f true place htype)
  | text =>
    cases h
    exact TagValue.readsNumber_whole (fitsReal_number f false place (by decide))
  | ratio isSigned =>
    cases h
    exact readsNumber_reduced (hroom place isSigned) (hroom (place + 4) isSigned)
  | single =>
    rcases Option.map_eq_some_iff.mp h with ⟨n, -, rfl⟩
    exact hreal _
  | double =>
    rcases Option.map_eq_some_iff.mp h with ⟨n, -, rfl⟩
    exact hreal _

/-- What has a text at the end, after some check, is made of it. -/
theorem exists_of_checked {α : Type} {refused : Prop} [Decidable refused] {text : Option String}
    {result : String → α} {value : α}
    (h : (do
      if refused then none
      let text ← text
      return result text) = some value) : ∃ text, value = result text := by
  by_cases hrefused : refused
  · rw [if_pos hrefused] at h
    cases h
  · rw [if_neg hrefused] at h
    rcases Option.bind_eq_some_iff.mp h with ⟨text, -, hvalue⟩
    exact ⟨text, (Option.some.inj hvalue).symm⟩

/-- The tag of an entry that is no text is a list of values that have been read one by one. -/
theorem exists_values_of_field? {type : FieldType} (htype : type ≠ .text) {count place : Nat}
    {value : TagValue} (h : f.field? type count place = some value) :
    ∃ (places : List Nat) (text : String),
      value = .tag (.items (places.filterMap fun p => f.value? p type)) text := by
  refine ⟨(List.range (if count < valueLimit then count else 0)).map
    fun k => place + k * type.bytes, ?_⟩
  rw [List.filterMap_map]
  cases type with
  | text => exact absurd rfl htype
  | _ => exact exists_of_checked h

theorem isLegible_of_field? {type : FieldType} (htype : type.IsNarrow) {count place : Nat}
    {value : TagValue} (h : f.field? type count place = some value) : value.IsLegible := by
  by_cases htext : type = .text
  · rw [htext] at h
    rcases Option.map_eq_some_iff.mp h with ⟨text, -, rfl⟩
    exact ⟨TagValue.readsLabel_tag _ text, none, rfl⟩
  · -- What the tag holds was read value by value, each of the type of the entry.
    rcases exists_values_of_field? htext h with ⟨places, text, rfl⟩
    refine ⟨TagValue.readsLabel_tag _ text, TagValue.readsNumber_tag ?_ text⟩
    intro value hvalue
    rcases List.mem_filterMap.mp hvalue with ⟨place, -, hread⟩
    exact readsNumber_of_value? htype hread

theorem isLegible_of_entry? {place : Nat} {entry : Nat × TagValue}
    (h : f.entry? place = some (some entry)) : entry.2.IsLegible := by
  unfold entry? at h
  by_cases hignored : ignoredTags.contains (f.natural place 2) = true
  · simp only [hignored, if_true] at h
    cases h
  · simp only [hignored, if_false, Bool.false_eq_true] at h
    cases htype : FieldType.ofNumber? (f.natural (place + 2) 2) with
    | none =>
      rw [htype] at h
      cases h
    | some type =>
      rw [htype] at h
      rcases Option.bind_eq_some_iff.mp h with ⟨value, hvalue, hentry⟩
      cases hentry
      exact isLegible_of_field? (FieldType.isNarrow_of_ofNumber? htype) hvalue

/-- What is made of each of some things is made of one of them. -/
theorem mem_of_mapM {α β : Type} {make : α → Option β} {xs : List α} {ys : List β}
    (h : xs.mapM make = some ys) {y : β} (hy : y ∈ ys) : ∃ x ∈ xs, make x = some y := by
  induction xs generalizing ys with
  | nil =>
    cases h
    cases hy
  | cons x rest ih =>
    rw [List.mapM_cons] at h
    rcases Option.bind_eq_some_iff.mp h with ⟨first, hfirst, h⟩
    rcases Option.bind_eq_some_iff.mp h with ⟨more, hmore, h⟩
    cases h
    rcases List.mem_cons.mp hy with rfl | hy
    · exact ⟨x, List.mem_cons_self, hfirst⟩
    · rcases ih hmore hy with ⟨x', hx', hmade⟩
      exact ⟨x', List.mem_cons_of_mem x hx', hmade⟩

theorem isLegible_of_directory? {place : Nat} {entries : List (Nat × TagValue)}
    (h : f.directory? place = some entries) : ∀ entry ∈ entries, entry.2.IsLegible := by
  rcases Option.bind_eq_some_iff.mp h with ⟨read, hread, hentries⟩
  cases hentries
  intro entry hentry
  rcases mem_of_mapM hread (List.reduceOption_mem_iff.mp hentry) with ⟨k, -, hk⟩
  exact isLegible_of_entry? hk

theorem isLegible_named (names : List (Nat × String)) {entries : List (Nat × TagValue)}
    (h : ∀ entry ∈ entries, entry.2.IsLegible) : ∀ tag ∈ named names entries, tag.2.IsLegible := by
  intro tag htag
  rcases List.mem_filterMap.mp htag with ⟨entry, hentry, hnamed⟩
  rcases Option.map_eq_some_iff.mp hnamed with ⟨name, -, rfl⟩
  exact h entry (List.mem_reverse.mp hentry)

theorem isLegible_of_exposure? {value : TagValue} {tags : Exif.Tags}
    (h : f.exposure? value = some tags) : ∀ tag ∈ tags, tag.2.IsLegible := by
  have hdirectory {place : Nat} (h : named exposureNames <$> f.directory? place = some tags) :
      ∀ tag ∈ tags, tag.2.IsLegible := by
    rcases Option.map_eq_some_iff.mp h with ⟨entries, hentries, rfl⟩
    exact isLegible_named exposureNames (isLegible_of_directory? hentries)
  unfold exposure? at h
  split at h
  · cases h
  · split at h
    · cases h
    · exact hdirectory h
  · split at h
    · cases h
    · cases h
      nofun
  · exact hdirectory h
  · cases h
    nofun

/-- Every tag of a file can be read, as a text and as a number. -/
theorem isLegible_of_tags? {tags : Exif.Tags} (h : f.tags? = some tags) :
    ∀ tag ∈ tags, tag.2.IsLegible := by
  rcases Option.bind_eq_some_iff.mp h with ⟨directories, hdirectories, h⟩
  have hpicture : ∀ tag ∈ named pictureNames (directories.headD []), tag.2.IsLegible := by
    cases directories with
    | nil => nofun
    | cons picture rest =>
      rcases mem_of_mapM hdirectories List.mem_cons_self with ⟨place, -, hplace⟩
      exact isLegible_named pictureNames (isLegible_of_directory? hplace)
  have hexposure : ∃ exposure : Exif.Tags, (∀ tag ∈ exposure, tag.2.IsLegible) ∧
      tags = named pictureNames (directories.headD []) ++ exposure := by
    dsimp only at h
    split at h
    · rcases Option.bind_eq_some_iff.mp h with ⟨exposure, hexposure, h⟩
      exact ⟨exposure, isLegible_of_exposure? hexposure, (Option.some.inj h).symm⟩
    · exact ⟨[], nofun, (Option.some.inj h).symm⟩
  rcases hexposure with ⟨exposure, hexposure, rfl⟩
  intro tag htag
  rcases List.mem_append.mp htag with htag | htag
  · exact hpicture tag htag
  · exact hexposure tag htag

/-- So can every tag that is found in the bytes of a file. -/
theorem isLegible_of_read? {data : ByteArray} {tags : Exif.Tags} (h : read? data = some tags) :
    ∀ tag ∈ tags, tag.2.IsLegible := by
  rcases Option.bind_eq_some_iff.mp h with ⟨f, -, htags⟩
  exact isLegible_of_tags? htags

end Tiff

/-- What the tags say that are found in a file is read when its values are. -/
theorem Exif.exists_ofReading_iff (found : Option Tags) :
    (∃ e, ofReading found = .ok e) ↔ ∀ tags, found = some tags → tags.AreRead := by
  cases found with
  | none => exact iff_of_true ⟨empty, rfl⟩ nofun
  | some tags =>
    simp only [Option.some.injEq, forall_eq']
    exact exists_ofTags_iff tags

namespace Environment

/-- The tags that the library finds in a file, if it is there and finds any, have values that are
    read. -/
def ReadsTags (env : Environment) (data : ByteArray) : Prop :=
  env.libraries.tags = true → ∀ tags, env.readers.tags data = some tags → tags.AreRead

/-- It depends on the values of its tags whether it is found out what a file says. -/
theorem exists_exifOfBytes_iff (env : Environment) (data : ByteArray) :
    (∃ e, env.exifOfBytes data = .ok e) ↔ env.ReadsTags data := by
  unfold exifOfBytes ReadsTags
  by_cases hlibrary : env.libraries.tags = true
  · rw [if_pos hlibrary, imp_iff_right hlibrary]
    exact Exif.exists_ofReading_iff _
  · rw [if_neg hlibrary]
    exact iff_of_true ⟨.empty, rfl⟩ fun h => absurd h hlibrary

/-- The reader of this program never finds a value that is not read, whatever the bytes are. -/
theorem readsTags_of_read? {env : Environment} (h : env.readers.tags = Tiff.read?)
    (data : ByteArray) : env.ReadsTags data := by
  intro _ tags htags
  rw [h] at htags
  exact Exif.areRead_of_isLegible (Tiff.isLegible_of_read? htags)

end Environment

end Darkroom
