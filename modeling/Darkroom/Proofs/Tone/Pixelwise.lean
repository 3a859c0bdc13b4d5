import Darkroom.Proofs.Samples.Rows
import Darkroom.Tone.Adjuster
import Mathlib.Data.Nat.ModEq

/-!
# Adjusting Pixel by Pixel

Adjusting a picture in place, chunk after chunk, is a map over its pixels.

The loops overwrite the samples that they have read. What holds between two steps is that the pixels
up to some number are adjusted, each of them from its first samples, and that the others are as they
were: `adjustedTo`. A step of the innermost loop moves that number by one, a chunk of rows moves it
to the end of the chunk, and all chunks move it to the end of the picture. The size of the chunks is
gone by then.

## Main definitions

* `PixelBuffer.sample`: The sample of a channel at a place.
* `adjustedSample`: What the factors make of one sample.
* `PixelBuffer.adjustedTo`: A picture with its first pixels adjusted.

## Theorems

* `adjustPixel_adjustedCells`: One step.
* `adjustPixels_adjustedCells`: The innermost loop.
* `PixelBuffer.adjustChunks_eq`: All chunks, whatever their size.
-/

namespace Darkroom

/-- What the factors make of the sample at an index: the first three of a pixel change, and depend
    on each other. -/
def adjustedSample (blend : Blend) (type : SampleType) (channels : ℕ) (cells : Array type.Sample)
    (i : ℕ) : type.Sample :=
  let first := i / channels * channels
  let (red, green, blue) := blend.pixel (type.toSingle (cells.getD first default))
    (type.toSingle (cells.getD (first + 1) default))
    (type.toSingle (cells.getD (first + 2) default))
  match i % channels with
  | 0 => type.ofByte red
  | 1 => type.ofByte green
  | 2 => type.ofByte blue
  | _ => cells.getD i default

/-- Samples of which the first `pixels` pixels are adjusted. -/
def adjustedCells (blend : Blend) (type : SampleType) (channels : ℕ) (cells : Array type.Sample)
    (pixels : ℕ) : Array type.Sample :=
  cells.mapIdx fun i cell =>
    if i / channels < pixels then adjustedSample blend type channels cells i else cell

/-- An index tells the pixel and the channel. -/
theorem pixel_index_iff {channels p k i : ℕ} (hk : k < channels) :
    p * channels + k = i ↔ i / channels = p ∧ i % channels = k := by
  rw [Nat.div_mod_unique (by omega), Nat.mul_comm, Nat.add_comm, and_iff_left hk]

/-- The first three samples of a pixel written over. -/
theorem getElem_writePixel {α : Type} {cells : Array α} {channels p i : ℕ} {red green blue : α}
    (hc : 3 ≤ channels) (h : i < cells.size) :
    getElem (((cells.setIfInBounds (p * channels) red).setIfInBounds (p * channels + 1)
        green).setIfInBounds (p * channels + 2) blue) i (by simpa using h) =
      if i / channels = p then
        match i % channels with
        | 0 => red
        | 1 => green
        | 2 => blue
        | _ => cells[i]
      else cells[i] := by
  have hfirst := pixel_index_iff (p := p) (i := i) (show 0 < channels by omega)
  have hsecond := pixel_index_iff (p := p) (i := i) (show 1 < channels by omega)
  have hthird := pixel_index_iff (p := p) (i := i) (show 2 < channels by omega)
  rw [Nat.add_zero] at hfirst
  rw [Array.getElem_setIfInBounds (by simpa using h),
    Array.getElem_setIfInBounds (by simpa using h),
    Array.getElem_setIfInBounds h]
  simp only [hfirst, hsecond, hthird]
  -- Each of the three writes hits its own channel of the pixel, and no other pixel.
  by_cases hp : i / channels = p
  · simp only [hp, true_and, if_true]
    generalize i % channels = k
    rcases k with _ | _ | _ | k <;> simp
  · simp only [hp, false_and, if_false]

section

variable {blend : Blend} {type : SampleType} {channels : ℕ} {cells : Array type.Sample}

@[simp]
theorem size_adjustedCells (pixels : ℕ) :
    (adjustedCells blend type channels cells pixels).size = cells.size := by
  simp [adjustedCells]

theorem getElem_adjustedCells (blend : Blend) (channels pixels : ℕ) {i : ℕ} (h : i < cells.size) :
    getElem (adjustedCells blend type channels cells pixels) i (by simpa using h) =
      if i / channels < pixels then adjustedSample blend type channels cells i else cells[i] := by
  simp [adjustedCells]

theorem adjustedCells_zero : adjustedCells blend type channels cells 0 = cells := by
  refine Array.ext (by simp) fun i _ h => ?_
  rw [getElem_adjustedCells _ _ _ h, if_neg (Nat.not_lt_zero _)]

/-- A pixel that is still to be adjusted has the samples that it had. -/
theorem getElem_adjustedCells_next (blend : Blend) (p : ℕ) {k : ℕ} (hk : k < channels)
    (h : p * channels + k < cells.size) :
    getElem (adjustedCells blend type channels cells p) (p * channels + k) (by simpa using h) =
      cells.getD (p * channels + k) default := by
  have hdiv : (p * channels + k) / channels = p := by
    rw [Nat.mul_comm, Nat.mul_add_div (by omega), Nat.div_eq_of_lt hk, Nat.add_zero]
  rw [getElem_adjustedCells _ _ _ h, hdiv, if_neg (Nat.lt_irrefl p), Array.getD_eq_getD_getElem?,
    Array.getElem?_eq_getElem h, Option.getD_some]

/-- Beyond the last pixel nothing is left to adjust. -/
theorem adjustedCells_succ_of_le (hc : 0 < channels) {count p : ℕ}
    (hsize : cells.size = count * channels) (hlast : count ≤ p) :
    adjustedCells blend type channels cells p =
      adjustedCells blend type channels cells (p + 1) := by
  refine Array.ext (by simp) fun i hi _ => ?_
  rw [size_adjustedCells] at hi
  have hpixel : i / channels < count := by
    rw [Nat.div_lt_iff_lt_mul hc, ← hsize]
    exact hi
  rw [getElem_adjustedCells _ _ _ hi, getElem_adjustedCells _ _ _ hi,
    if_pos (lt_of_lt_of_le hpixel hlast), if_pos (lt_of_lt_of_le hpixel (Nat.le_succ_of_le hlast))]

/-- One step of the loop. -/
theorem adjustPixel_adjustedCells (hc : 3 ≤ channels) {count : ℕ}
    (hsize : cells.size = count * channels) (p : ℕ) :
    PixelBuffer.adjustPixel blend type channels (adjustedCells blend type channels cells p) p =
      adjustedCells blend type channels cells (p + 1) := by
  unfold PixelBuffer.adjustPixel
  simp only
  split_ifs with h
  · rw [size_adjustedCells] at h
    have h0 : p * channels + 0 < cells.size := by omega
    have h1 : p * channels + 1 < cells.size := by omega
    have hread0 := getElem_adjustedCells_next blend p (by omega) h0
    rw [getElem_adjustedCells_next blend p (by omega) h1,
      getElem_adjustedCells_next blend p (by omega) h]
    simp only [Nat.add_zero] at hread0
    rw [hread0]
    -- Reading goes before writing, so the three samples are those of the picture.
    refine Array.ext (by simp) fun i hi _ => ?_
    simp only [Array.size_setIfInBounds, size_adjustedCells] at hi
    rw [getElem_writePixel hc (by simpa using hi), getElem_adjustedCells _ _ _ hi,
      getElem_adjustedCells _ _ _ hi]
    by_cases hp : i / channels = p
    · have hcell : cells.getD i default = cells[i] := by simp [hi]
      rw [hp, if_pos rfl, if_pos (Nat.lt_succ_self p), if_neg (Nat.lt_irrefl p)]
      unfold adjustedSample
      rw [hp, hcell]
    · rw [if_neg hp]
      by_cases hlt : i / channels < p
      · rw [if_pos hlt, if_pos (Nat.lt_succ_of_lt hlt)]
      · rw [if_neg hlt, if_neg fun h => hlt (lt_of_le_of_ne (Nat.lt_succ_iff.mp h) hp)]
  · -- A pixel that does not fit is none of the picture's.
    rw [size_adjustedCells, hsize] at h
    refine adjustedCells_succ_of_le (by omega) hsize ?_
    by_contra hlt
    have := Nat.mul_le_mul_right channels (show p + 1 ≤ count by omega)
    rw [Nat.add_mul, Nat.one_mul] at this
    omega

/-- The loop. -/
theorem adjustPixels_adjustedCells (hc : 3 ≤ channels) {count : ℕ}
    (hsize : cells.size = count * channels) (n p : ℕ) :
    PixelBuffer.adjustPixels blend type channels n p (adjustedCells blend type channels cells p) =
      adjustedCells blend type channels cells (p + n) := by
  induction n generalizing p with
  | zero => rfl
  | succ n ih =>
    rw [PixelBuffer.adjustPixels, adjustPixel_adjustedCells hc hsize, ih]
    congr 1
    omega

end

namespace PixelBuffer

/-- A picture with its first `pixels` pixels adjusted. -/
def adjustedTo (blend : Blend) (b : PixelBuffer) (pixels : ℕ) : PixelBuffer where
  height := b.height
  width := b.width
  channels := b.channels
  type := b.type
  cells := adjustedCells blend b.type b.channels b.cells pixels
  size_eq := by simpa using b.size_eq

/-- A picture with every pixel adjusted. -/
def adjusted (blend : Blend) (b : PixelBuffer) : PixelBuffer :=
  b.adjustedTo blend (b.height * b.width)

variable {blend : Blend} {b : PixelBuffer}

theorem adjustedTo_zero : b.adjustedTo blend 0 = b := by
  unfold adjustedTo
  simp only [adjustedCells_zero]

/-- A chunk of rows. -/
theorem adjustRows_adjustedTo (hc : 3 ≤ b.channels) {first last : ℕ} (h : first ≤ last) :
    (b.adjustedTo blend (first * b.width)).adjustRows blend first last =
      b.adjustedTo blend (last * b.width) := by
  have hcount : first * b.width + (last - first) * b.width = last * b.width := by
    rw [← Nat.add_mul, Nat.add_sub_cancel' h]
  unfold adjustRows adjustedTo
  simp only [adjustPixels_adjustedCells hc b.size_eq, hcount]

/-- All chunks from a row on. The rows before are adjusted already, each of them once; a start
    beyond the last row has nothing left. -/
theorem adjustChunks_adjustedTo (blend : Blend) (hc : 3 ≤ b.channels) {step : ℕ}
    (hstep : 0 < step) (start : ℕ) :
    (b.adjustedTo blend (min start b.height * b.width)).adjustChunks blend step hstep start =
      b.adjusted blend := by
  rw [adjustChunks]
  -- By induction on the rows that are left.
  by_cases h : start < b.height
  · have hheight : (b.adjustedTo blend (min start b.height * b.width)).height = b.height := rfl
    rw [hheight, if_pos h, Nat.min_eq_left h.le,
      adjustRows_adjustedTo hc (Nat.le_min.mpr ⟨Nat.le_add_right start step, h.le⟩)]
    exact adjustChunks_adjustedTo blend hc hstep (start + step)
  · have hheight : (b.adjustedTo blend (min start b.height * b.width)).height = b.height := rfl
    rw [hheight, if_neg h, Nat.min_eq_right (Nat.not_lt.mp h), adjusted]
termination_by b.height - start

/-- The size of the chunks does not show. -/
theorem adjustChunks_eq (hc : 3 ≤ b.channels) {step : ℕ} (hstep : 0 < step) :
    b.adjustChunks blend step hstep 0 = b.adjusted blend := by
  have hall := adjustChunks_adjustedTo blend hc hstep 0
  rwa [Nat.zero_min, Nat.zero_mul, adjustedTo_zero] at hall

/-- The number of rows to a chunk is left open or a positive whole number. -/
def IsRowCount (rows : Option Number) : Prop := ∀ number ∈ rows, ∃ n : ℤ, 0 < n ∧ number = .whole n

theorem IsRowCount.chunkRows {rows : Option Number} (h : IsRowCount rows) (height : ℕ) :
    rows.any Number.isAtMostZero = false ∧ ∃ step, 0 < step ∧ chunkRows rows height = .ok step := by
  cases rows with
  | none => exact ⟨rfl, _, Nat.lt_of_lt_of_le Nat.one_pos (Nat.le_max_right _ _), rfl⟩
  | some number =>
    rcases h number rfl with ⟨n, hn, rfl⟩
    refine ⟨?_, n.toNat, by omega, rfl⟩
    simp [Number.isAtMostZero, hn]

/-- The knobs applied to a picture of bytes: nothing of the chunks is left. -/
theorem adjust_eq (hbyte : b.type = .whole .byte) (hc : 3 ≤ b.channels) (a : Adjustment)
    {rows : Option Number} (hrows : IsRowCount rows) :
    b.adjust a rows =
      if a.isIdentity then .ok b
      else if b.height = 0 then .ok b
      else a.blend.map fun blend => b.adjusted blend := by
  rcases hrows.chunkRows b.height with ⟨hany, step, hstep, hrow⟩
  have hbits : b.bits = 8 := by
    rw [bits, hbyte]
    rfl
  unfold adjust
  rw [hany, if_neg Bool.false_ne_true, if_neg (by omega), if_neg (by omega), hrow]
  by_cases h0 : b.height = 0
  · simp only [bind, Except.bind, if_pos h0]
    rfl
  · simp only [bind, Except.bind, if_neg h0, dif_pos hstep, adjustChunks_eq hc hstep]
    cases a.blend <;> rfl

theorem adjusted_of_empty (h : b.height = 0) : b.adjusted blend = b := by
  rw [adjusted, h, Nat.zero_mul, adjustedTo_zero]

/-- The place of a sample among all samples. -/
def sampleIndex (b : PixelBuffer) (y x k : ℕ) : ℕ := (y * b.width + x) * b.channels + k

theorem pixel_lt (y : Fin b.height) (x : Fin b.width) : y * b.width + x < b.height * b.width :=
  rowIndex_lt y.isLt x.isLt

theorem sampleIndex_lt (y : Fin b.height) (x : Fin b.width) (k : Fin b.channels) :
    b.sampleIndex y x k < b.cells.size := by
  rw [b.size_eq, sampleIndex]
  exact rowIndex_lt (pixel_lt y x) k.isLt

/-- The sample of a channel at a place. -/
def sample (b : PixelBuffer) (y : Fin b.height) (x : Fin b.width) (k : Fin b.channels) :
    b.type.Sample :=
  getElem b.cells (b.sampleIndex y x k) (sampleIndex_lt y x k)

theorem getD_sampleIndex (y : Fin b.height) (x : Fin b.width) (k : Fin b.channels) :
    b.cells.getD (b.sampleIndex y x k) default = b.sample y x k := by
  simp [sample, sampleIndex_lt y x k]

/-- The samples of an adjusted picture, as the array holds them. -/
theorem sample_adjusted_eq (y : Fin b.height) (x : Fin b.width) (k : Fin b.channels) :
    (b.adjusted blend).sample y x k =
      adjustedSample blend b.type b.channels b.cells (b.sampleIndex y x k) := by
  have hpixel := (pixel_index_iff (i := b.sampleIndex y x k) k.isLt).mp rfl
  have hcell := getElem_adjustedCells blend b.channels (b.height * b.width) (sampleIndex_lt y x k)
  rw [if_pos (by rw [hpixel.1]; exact pixel_lt y x)] at hcell
  exact hcell

/-- The samples of an adjusted picture: the first three of a pixel come from its first three, the
    others stay. -/
theorem sample_adjusted (hc : 3 ≤ b.channels) (y : Fin b.height) (x : Fin b.width)
    (k : Fin b.channels) :
    let colour := blend.pixel (b.type.toSingle (b.sample y x ⟨0, by omega⟩))
      (b.type.toSingle (b.sample y x ⟨1, by omega⟩)) (b.type.toSingle (b.sample y x ⟨2, by omega⟩))
    (b.adjusted blend).sample y x k =
      match k.val with
      | 0 => b.type.ofByte colour.1
      | 1 => b.type.ofByte colour.2.1
      | 2 => b.type.ofByte colour.2.2
      | _ => b.sample y x k := by
  have hpixel := (pixel_index_iff (i := b.sampleIndex y x k) k.isLt).mp rfl
  have hred := getD_sampleIndex y x (⟨0, by omega⟩ : Fin b.channels)
  have hgreen := getD_sampleIndex y x (⟨1, by omega⟩ : Fin b.channels)
  have hblue := getD_sampleIndex y x (⟨2, by omega⟩ : Fin b.channels)
  -- All four samples stand in the same pixel, so they see the same first three.
  unfold sampleIndex at hred hgreen hblue
  rw [sample_adjusted_eq, adjustedSample, hpixel.1, hpixel.2]
  simp only [Nat.add_zero] at hred hgreen hblue ⊢
  rw [hred, hgreen, hblue, getD_sampleIndex]
  rfl

/-- The knobs stand for factors as soon as they are real numbers, or can be made such. -/
theorem blend_of_toDouble {a : Adjustment} {s v : Double} (hs : a.saturation.toDouble = .ok s)
    (hv : a.vibrance.toDouble = .ok v) : ∃ blend, a.blend = .ok blend := by
  unfold Adjustment.blend Adjustment.scale Adjustment.vibranceFactor
  rw [hs, hv]
  split <;> split <;> exact ⟨_, rfl⟩

/-- Adjusting is a map over pixels. Its result has the shape and the type of the picture; the first
    three samples at a place are what the factors make of the first three there, and the others
    stay. The number of rows to a chunk does not show, also where a knob is too large for a real
    number. -/
theorem adjust_pixelwise (b : PixelBuffer) (hbyte : b.type = .whole .byte) (hc : 3 ≤ b.channels)
    (a : Adjustment) (ha : a.isIdentity = false) :
    (∀ s v, a.saturation.toDouble = .ok s → a.vibrance.toDouble = .ok v →
      ∃ blend, a.blend = .ok blend ∧
        (∀ rows, IsRowCount rows → b.adjust a rows = .ok (b.adjusted blend)) ∧
        (b.adjusted blend).height = b.height ∧ (b.adjusted blend).width = b.width ∧
        (b.adjusted blend).channels = b.channels ∧ (b.adjusted blend).type = b.type ∧
        ∀ (y : Fin b.height) (x : Fin b.width) (k : Fin b.channels),
          let colour := blend.pixel (b.type.toSingle (b.sample y x ⟨0, by omega⟩))
            (b.type.toSingle (b.sample y x ⟨1, by omega⟩))
            (b.type.toSingle (b.sample y x ⟨2, by omega⟩))
          (b.adjusted blend).sample y x k =
            match k.val with
            | 0 => b.type.ofByte colour.1
            | 1 => b.type.ofByte colour.2.1
            | 2 => b.type.ofByte colour.2.2
            | _ => b.sample y x k) ∧
    ∀ rows rows', IsRowCount rows → IsRowCount rows' → b.adjust a rows = b.adjust a rows' := by
  refine ⟨fun s v hs hv => ?_, fun rows rows' hrows hrows' => ?_⟩
  · rcases blend_of_toDouble hs hv with ⟨blend, hblend⟩
    refine ⟨blend, hblend, fun rows hrows => ?_, rfl, rfl, rfl, rfl, sample_adjusted hc⟩
    rw [adjust_eq hbyte hc a hrows, ha, if_neg Bool.false_ne_true, hblend]
    -- A picture without rows is handed back, and has no samples to adjust.
    by_cases h0 : b.height = 0
    · rw [if_pos h0, adjusted_of_empty h0]
    · rw [if_neg h0]
      rfl
  · rw [adjust_eq hbyte hc a hrows, adjust_eq hbyte hc a hrows']

/-- A picture of one pixel with four channels. -/
def onePixel : PixelBuffer where
  height := 1
  width := 1
  channels := 4
  type := .whole .byte
  cells := #[WholeType.byte.wrap 10, WholeType.byte.wrap 200, WholeType.byte.wrap 30,
    WholeType.byte.wrap 40]
  size_eq := rfl

/-- A picture of three rows of two pixels with four channels. -/
def threeRows : PixelBuffer where
  height := 3
  width := 2
  channels := 4
  type := .whole .byte
  cells := Array.ofFn fun i : Fin 24 => WholeType.byte.wrap (10 * i)
  size_eq := Array.size_ofFn

/-- Chunks of two rows leave one row over, and its last pixel is adjusted like all others. -/
theorem adjust_pixelwise_threeRows :
    ∃ blend, Adjustment.blend ⟨1, 0⟩ = .ok blend ∧
      threeRows.adjust ⟨1, 0⟩ (some 2) = .ok (threeRows.adjusted blend) ∧
      threeRows.adjust ⟨1, 0⟩ (some 2) = threeRows.adjust ⟨1, 0⟩ none ∧
      (threeRows.adjusted blend).sample (2 : Fin 3) (1 : Fin 2) (0 : Fin 4) =
        (SampleType.whole .byte).ofByte (blend.pixel
          ((SampleType.whole .byte).toSingle (WholeType.byte.wrap 200))
          ((SampleType.whole .byte).toSingle (WholeType.byte.wrap 210))
          ((SampleType.whole .byte).toSingle (WholeType.byte.wrap 220))).1 ∧
      (threeRows.adjusted blend).sample (2 : Fin 3) (1 : Fin 2) (3 : Fin 4) =
        WholeType.byte.wrap 230 := by
  have hnone : IsRowCount none := fun _ h => by cases h
  have htwo : IsRowCount (some 2) := fun _ h => ⟨2, by decide, (Option.some.inj h).symm⟩
  rcases adjust_pixelwise threeRows rfl (by decide) ⟨1, 0⟩ rfl with ⟨hadjust, hrows⟩
  rcases hadjust _ _ rfl rfl with ⟨blend, hblend, hall, -, -, -, -, hsample⟩
  exact ⟨blend, hblend, hall _ htwo, hrows _ _ htwo hnone,
    hsample (2 : Fin 3) (1 : Fin 2) (0 : Fin 4), hsample (2 : Fin 3) (1 : Fin 2) (3 : Fin 4)⟩

end PixelBuffer

end Darkroom
