import Darkroom.Proofs.Files.Steps
import Darkroom.Proofs.Mosaic.Rearrangement
import Darkroom.Raw.File

/-!
# Requests to RAW Files

What an open file answers when it answers at all.

The mosaic and the metadata are worked out on their own, each with casts of its own, and both from
what the handle shows. The handle stays the same whatever is asked. So an extraction, which takes
its levels from the mosaic, and the metadata that are handed on beside it tell of the same levels.

## Theorems

* `RawFile.of_ofSource`: What it takes to open a file.
* `RawFile.mosaicOf_eq_ok`, `RawFile.metadataWith_eq_ok`: What an answer takes from the handle.
* `RawFile.endsWell_modelInputs`: A model takes in a mosaic's planes and the metadata.
* `RawFile.describes_of_endsWell_modelInputs`: The metadata tell how the planes were made.
-/

namespace Darkroom

variable {env : Environment} {files : Tree Content} {file after : RawFile}

namespace RawFile

/-- What is opened is handed to the library, which finds a handle and shows how large the picture is
    and of how many colours. Nothing else has been asked of the file yet, and it remembers from where
    it was opened. -/
theorem of_ofSource {settings : DecodeSettings Given} {source : Source}
    (h : ofSource env settings source = .ok file) :
    ∃ opened handle shown, target env source = .ok opened ∧ env.opening = .ok handle ∧
      handle.outline = .ok shown ∧ file = ofHandle handle settings (some source) := by
  unfold ofSource at h
  split at h
  · cases h
  · rcases ok_bind_iff.mp h with ⟨label, hlabel, hopen⟩
    rcases ok_bind_iff.mp hlabel with ⟨opened, htarget, -⟩
    cases hopening : env.opening with
    | error reason =>
      rw [hopening] at hopen
      cases hopen
    | ok handle =>
      rw [hopening] at hopen
      rcases ok_bind_iff.mp hopen with ⟨shown, houtline, hfile⟩
      cases hfile
      exact ⟨opened, handle, shown, htarget, rfl, houtline, rfl⟩

/-- An open file shows what the library has found. -/
theorem opening_of_ofSource {settings : DecodeSettings Given} {source : Source}
    (h : ofSource env settings source = .ok file) : env.opening = .ok file.handle := by
  rcases of_ofSource h with ⟨_, handle, _, -, hopening, -, rfl⟩
  exact hopening

/-- It shows how large its picture is, since it has been asked for that. -/
theorem sizes_of_ofSource {settings : DecodeSettings Given} {source : Source}
    (h : ofSource env settings source = .ok file) : ∃ sizes, file.handle.sizes = .ok sizes := by
  rcases of_ofSource h with ⟨_, handle, shown, -, -, houtline, rfl⟩
  rcases ok_bind_iff.mp houtline with ⟨sizes, hsizes, -⟩
  exact ⟨sizes, hsizes⟩

theorem endsWell_mosaic {m : RawMosaic} :
    EndsWell mosaic file m after ↔ file.mosaicOf = .ok m ∧ file = after := by
  unfold mosaic
  rw [endsWell_get_bind, endsWell_liftExcept]

/-- What the camera says is read when it has not been read before. -/
theorem endsWell_exifData {exif : Exif} :
    EndsWell (exifData env files) file exif after ↔
      (file.exif.map .ok).getD (file.readExif env files) = .ok exif ∧
        after = { file with exif := some exif } := by
  unfold exifData
  rw [endsWell_get_bind]
  rcases hread : file.exif with _ | read
  · simp only [endsWell_liftExcept_bind, endsWell_set_bind, endsWell_pure]
    constructor
    · rintro ⟨_, hexif, rfl, rfl⟩
      exact ⟨hexif, rfl⟩
    · rintro ⟨hexif, rfl⟩
      exact ⟨exif, hexif, rfl, rfl⟩
  · -- What has been read once is not read again.
    have hfile : { file with exif := some read } = file := by rw [← hread]
    simp only [endsWell_pure]
    constructor
    · rintro ⟨rfl, rfl⟩
      exact ⟨rfl, hfile.symm⟩
    · rintro ⟨hexif, rfl⟩
      cases hexif
      exact ⟨rfl, hfile.symm⟩

/-- Nothing is known about a file that does not show how large its picture is. -/
theorem sizes_of_metadataWith {exif : Exif} {known : RawMetadata}
    (h : file.metadataWith exif = .ok known) : ∃ sizes, file.handle.sizes = .ok sizes := by
  unfold metadataWith at h
  rcases ok_bind_iff.mp h with ⟨sizes, hsizes, -⟩
  exact ⟨sizes, hsizes⟩

/-- What is known about a file depends on the file as it was opened, and on what the camera says. -/
theorem endsWell_metadata {known : RawMetadata} :
    EndsWell (metadata env files) file known after ↔
      ∃ exif, (file.exif.map .ok).getD (file.readExif env files) = .ok exif ∧
        file.metadataWith exif = .ok known ∧ after = { file with exif := some exif } := by
  unfold metadata
  rw [endsWell_get_bind, endsWell_liftExcept_bind, endsWell_bind]
  simp only [endsWell_exifData, endsWell_get_bind, endsWell_liftExcept]
  constructor
  · rintro ⟨_, -, exif, _, ⟨hexif, rfl⟩, hknown, rfl⟩
    exact ⟨exif, hexif, hknown, rfl⟩
  · rintro ⟨exif, hexif, hknown, rfl⟩
    -- The sizes are asked for once before the camera is, and once more with all the rest.
    rcases sizes_of_metadataWith hknown with ⟨sizes, hsizes⟩
    exact ⟨sizes, hsizes, exif, _, ⟨hexif, rfl⟩, hknown, rfl⟩

/-- The mosaic is made of what the handle shows. -/
theorem mosaicOf_eq_ok {m : RawMosaic} (h : file.mosaicOf = .ok m) :
    ∃ pattern black plane maximum, file.handle.pattern? = .ok (some pattern) ∧
      file.handle.blackLevels? = .ok black ∧ Plane.ofSamples file.handle.visible = .ok plane ∧
      file.handle.maximum = .ok maximum ∧
      m = ⟨plane, pattern, ⟨.whole maximum, .whole (Handle.leastBlack black)⟩⟩ := by
  unfold mosaicOf at h
  rcases ok_bind_iff.mp h with ⟨pattern, hpattern, h⟩
  rcases pattern with _ | pattern
  · cases h
  · simp only [ok_bind_iff] at h
    rcases h with ⟨black, hblack, plane, hplane, maximum, hmaximum, h⟩
    cases h
    exact ⟨pattern, black, plane, maximum, hpattern, hblack, hplane, hmaximum, rfl⟩

/-- So are the levels among what is known about a file. -/
theorem metadataWith_eq_ok {exif : Exif} {known : RawMetadata}
    (h : file.metadataWith exif = .ok known) :
    ∃ pattern black, file.handle.pattern? = .ok pattern ∧ file.handle.blackLevels? = .ok black ∧
      file.handle.maximum = .ok known.whiteLevel ∧
      known.tileLabels = pattern.map MosaicPattern.tileLabels ∧
      known.blackLevel = Handle.leastBlack black := by
  unfold metadataWith at h
  simp only [ok_bind_iff] at h
  rcases h with ⟨sizes, -, pattern, hpattern, black, hblack, _, -, _, -, _, -, _, -, _, -, _, -,
    _, -, _, -, _, -, _, -, whiteLevel, hwhite, _, -, h⟩
  cases h
  exact ⟨pattern, black, hpattern, hblack, hwhite, rfl, rfl⟩

/-- What a model takes in: the planes of the mosaic, the metadata, and developed planes. Each is
    asked of the file on its own. -/
theorem endsWell_modelInputs {subtractBlack includeRgb : Bool} {inputs : ModelInputs} :
    EndsWell (modelInputs env files subtractBlack includeRgb) file inputs after ↔
      ∃ m known told, file.mosaicOf = .ok m ∧
        m.plane.extract m.pattern m.calibration subtractBlack = .ok inputs.tensor ∧
        EndsWell (metadata env files) file known told ∧
        ModelMetadata.ofEntries known.entries = .ok inputs.metadata ∧
        EndsWell (if includeRgb then some <$> linearPicture env else pure none) told inputs.rgb
          after := by
  unfold modelInputs
  simp only [endsWell_bind, endsWell_mosaic, endsWell_liftExcept]
  constructor
  · rintro ⟨m, _, ⟨hm, rfl⟩, tensor, _, ⟨htensor, rfl⟩, known, told, hknown, metadata, _,
      ⟨hmetadata, rfl⟩, hrest⟩
    cases includeRgb with
    | false =>
      rcases endsWell_bind.mp hrest with ⟨rgb, _, hrgb, hpure⟩
      cases hpure
      exact ⟨m, known, told, hm, htensor, hknown, hmetadata, hrgb⟩
    | true =>
      rcases endsWell_bind.mp hrest with ⟨rgb, _, hrgb, hpure⟩
      cases hpure
      exact ⟨m, known, told, hm, htensor, hknown, hmetadata, hrgb⟩
  · rintro ⟨m, known, told, hm, htensor, hknown, hmetadata, hrgb⟩
    refine ⟨m, _, ⟨hm, rfl⟩, _, _, ⟨htensor, rfl⟩, known, told, hknown, _, _, ⟨hmetadata, rfl⟩, ?_⟩
    cases includeRgb with
    | false => exact endsWell_bind.mpr ⟨_, _, hrgb, rfl⟩
    | true => exact endsWell_bind.mpr ⟨_, _, hrgb, rfl⟩

end RawFile

/-- What a model is told of levels and labels is what is known of them. -/
theorem ModelMetadata.ofEntries_eq_ok {known : RawMetadata} {told : ModelMetadata}
    (h : ofEntries known.entries = .ok told) :
    told.blackLevel = .whole known.blackLevel ∧ told.maximum = .whole known.whiteLevel ∧
      told.tileLabels = .optionalText known.tileLabels := by
  unfold ofEntries at h
  simp only [ok_bind_iff] at h
  rcases h with ⟨_, -, _, -, h⟩
  cases h
  exact ⟨rfl, rfl, rfl⟩

/-- The plane of an array holds its samples. -/
theorem Plane.toSamples_of_ofSamples {a : Samples} {p : Plane} (h : ofSamples a = .ok p) :
    p.toSamples = a := by
  rcases a with ⟨type, shape, cells, size_eq⟩
  unfold ofSamples at h
  cases type with
  | whole t =>
    match shape with
    | [height, width] =>
      cases h
      rfl
    | [] => cases h
    | [_] => cases h
    | _ :: _ :: _ :: _ =>
      dsimp only at h
      cases h
  | single =>
    dsimp only at h
    split at h <;> cases h
  | double =>
    dsimp only at h
    split at h <;> cases h

/-- The planes hold the readings of a sensor, normalised with a greatest reading and a black
    level. -/
def Tensor.Normalizes (t : Tensor) (visible : Samples) (maximum black : ℤ) : Prop :=
  ∃ height width, visible.shape = [height, width] ∧ t.height = height / 2 ∧ t.width = width / 2 ∧
    ∀ k < 4, ∀ i < height / 2, ∀ j < width / 2,
      (visible.normalize (Binary.ofInt maximum) (Binary.ofInt black)).cells[
        (2 * i + k / 2) * width + (2 * j + k % 2)]? = some (t.share k i j)

theorem Plane.normalizes_tensorIn (p : Plane) (maximum black : ℤ) :
    (p.tensorIn (ReadingRange.between (Binary.ofInt black) (Binary.ofInt maximum))).Normalizes
      p.toSamples maximum black := by
  refine ⟨p.height, p.width, rfl, rfl, rfl, fun k hk i hi j hj => ?_⟩
  rw [p.share_tensorIn _ hk hi hj]
  have hcell := p.getElem?_planeReading hk hi hj
  show (p.cells.map fun cell => (ReadingRange.between _ _).share (Binary.ofInt cell.val))[
    (2 * i + k / 2) * p.width + (2 * j + k % 2)]? = _
  rw [Array.getElem?_map, hcell]
  rfl

namespace RawFile

/-- The metadata that a model takes in tell how its planes were made. -/
theorem describes_of_endsWell_modelInputs {subtractBlack includeRgb : Bool} {inputs : ModelInputs}
    (h : EndsWell (modelInputs env files subtractBlack includeRgb) file inputs after) :
    ∃ maximum black, inputs.metadata.maximum = .whole maximum ∧
      inputs.metadata.blackLevel = .whole black ∧ inputs.metadata.tileLabels = .text "RGGB" ∧
      inputs.tensor.Normalizes file.handle.visible (if 0 < maximum then maximum else 65535)
        (if subtractBlack then black else 0) := by
  rcases endsWell_modelInputs.mp h with ⟨m, known, _, hm, htensor, hmetadata, htold, -⟩
  rcases endsWell_metadata.mp hmetadata with ⟨exif, -, hknown, -⟩
  rcases mosaicOf_eq_ok hm with
    ⟨pattern, black, plane, maximum, hpattern, hblack, hplane, hmax, rfl⟩
  rcases metadataWith_eq_ok hknown with
    ⟨pattern', black', hpattern', hblack', hmax', hlabels, hlevel⟩
  -- The handle has answered both requests alike.
  cases hpattern.symm.trans hpattern'
  cases hblack.symm.trans hblack'
  cases hmax.symm.trans hmax'
  rcases ModelMetadata.ofEntries_eq_ok htold with ⟨htoldBlack, htoldMax, htoldLabels⟩
  rcases plane.extract_eq_ok htensor with ⟨hrggb, x, y, hx, hy, htensor⟩
  -- Both levels are whole numbers that became real ones without a failure.
  have hxvalue := Plane.subtractedBlack_eq_ok rfl hx
  have hyvalue := Calibration.effectiveMaximum_eq_ok rfl hy
  refine ⟨known.whiteLevel, Handle.leastBlack black, htoldMax, hlevel ▸ htoldBlack, ?_, ?_⟩
  · rw [htoldLabels, hlabels, Option.map_some, MosaicPattern.tileLabels_of_isRggb hrggb]
    rfl
  · rw [htensor, hxvalue, hyvalue, ← Plane.toSamples_of_ofSamples hplane]
    exact plane.normalizes_tensorIn _ _

end RawFile

end Darkroom
