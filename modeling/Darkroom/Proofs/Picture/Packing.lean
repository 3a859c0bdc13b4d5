import Darkroom.Picture.PixelBuffer
import Darkroom.Proofs.Numeric.LowBytes
import Darkroom.Proofs.Samples.Rows
import Darkroom.Proofs.Samples.Shapes
import Darkroom.Proofs.Tone.Pixelwise

/-!
# Pictures Packed and Unpacked

Bytes become a picture and the picture becomes the same bytes, and the other way round.

Two things are put together here. A sample and its bytes say the same, as long as the type has no
sign: the bytes are the places of the sample's number, so a number comes back from its places and
places from their number. And samples side by side have their bytes side by side, as many for each,
so that the bytes of a sample stand where its number says. What is left is the dimensions. Their
product must be the number of samples, but a product hides two negative factors, and a zero hides
everything else: the negative ones are refused by the change of shape, and beside a zero the others
must still be those of some array.

## Main definitions

* `PixelBuffer.sampleNumber`: The number that the bytes of a sample make up.
* `PixelBuffer.packed`: The picture of bytes.
* `PixelBuffer.HasSize`: Bytes are as many as a picture has.
* `PixelBuffer.IsPictureOf`: A picture of bytes.

## Theorems

* `WholeType.ofLowBytes_sampleBytes`, `WholeType.sampleBytes_wrap`: A sample and its bytes.
* `PixelBuffer.flatMap_cellsOfBytes`, `PixelBuffer.samplesOfBytes_flatMap`: Samples and their bytes.
* `PixelBuffer.ofCells_eq_ok`, `PixelBuffer.of_ofCells_eq_ok`: The dimensions that are taken.
* `PixelBuffer.packed_inverts_toBytes`: Pictures and their bytes.
-/

namespace Darkroom

theorem Width.bytes_pos (width : Width) : 0 < width.bytes := by cases width <;> decide

/-- The number of a sample of a whole type. -/
def SampleType.whole? : (t : SampleType) → t.Sample → Option ℤ
  | whole _, n => some n.val
  | _, _ => none

namespace WholeType

/-- The bytes of a whole sample, the lowest first. -/
def sampleBytes (t : WholeType) (s : t.Sample) : List UInt8 := SampleType.toBytes (.whole t) s

variable {t : WholeType} (ht : t.isSigned = false)
include ht

/-- Without a sign, a type has the numbers that its bytes make up. -/
theorem holds_iff_of_unsigned (n : ℤ) : t.Holds n ↔ 0 ≤ n ∧ n < (256 ^ t.width.bytes : ℕ) := by
  have hlow : t.low = 0 := by rw [low, ht]; rfl
  have hsize : t.size = (256 ^ t.width.bytes : ℕ) := by
    show ((2 ^ (8 * t.width.bytes) : ℕ) : ℤ) = _
    rw [pow_mul]
    norm_num
  rw [Holds, hlow, hsize, zero_add]

/-- The bytes of a sample are those of its number. -/
theorem sampleBytes_eq_lowBytes (s : t.Sample) :
    t.sampleBytes s = lowBytes t.width.bytes s.val.toNat := by
  have hlow : t.low = 0 := by rw [low, ht]; rfl
  have h0 := s.property.1
  have h1 := s.property.2
  rw [hlow] at h0 h1
  show lowBytes t.width.bytes (s.val % t.size).toNat = _
  rw [Int.emod_eq_of_lt h0 (by omega)]

theorem ofLowBytes_sampleBytes (s : t.Sample) :
    (ofLowBytes (t.sampleBytes s) : ℤ) = s.val := by
  rcases (holds_iff_of_unsigned ht s.val).mp s.property with ⟨h0, h1⟩
  rw [sampleBytes_eq_lowBytes ht, ofLowBytes_lowBytes (by omega)]
  omega

theorem length_sampleBytes (s : t.Sample) :
    (t.sampleBytes s).length = t.width.bytes := by
  rw [sampleBytes_eq_lowBytes ht, length_lowBytes]

/-- Bytes of the right number make up a number of the type. -/
theorem holds_ofLowBytes {bytes : List UInt8} (h : bytes.length = t.width.bytes) :
    t.Holds (ofLowBytes bytes) := by
  have hlt := ofLowBytes_lt bytes
  rw [h] at hlt
  exact (holds_iff_of_unsigned ht _).mpr ⟨by omega, by exact_mod_cast hlt⟩

/-- Bytes of the right number are the bytes of the sample that they make up. -/
theorem sampleBytes_wrap {bytes : List UInt8} (h : bytes.length = t.width.bytes) :
    t.sampleBytes (t.wrap (ofLowBytes bytes)) = bytes := by
  rw [wrap_eq (holds_ofLowBytes ht h), sampleBytes_eq_lowBytes ht, Int.toNat_natCast, ← h,
    lowBytes_ofLowBytes]

end WholeType

namespace PixelBuffer

/-- The bytes of the sample with a number. -/
def bytesAt (width : ℕ) (data : ByteArray) (n : ℕ) : List UInt8 :=
  List.ofFn fun k : Fin width => data.get! (n * width + k)

theorem length_bytesAt (width : ℕ) (data : ByteArray) (n : ℕ) :
    (bytesAt width data n).length = width := List.length_ofFn

/-- The number that the bytes of a sample make up, the lowest first. -/
def sampleNumber (width : ℕ) (data : ByteArray) (n : ℕ) : ℕ :=
  ∑ i ∈ Finset.range width, (data.get! (n * width + i)).toNat * 256 ^ i

theorem get!_eq_getD (data : ByteArray) (i : ℕ) :
    data.get! i = data.data.toList[i]?.getD 0 := by
  rw [Array.getElem?_toList]
  exact Array.getElem!_eq_getD.trans Array.getD_eq_getD_getElem?

/-- The bytes of all samples, one sample after the other, are the bytes. -/
theorem flatten_bytesAt {width count : ℕ} {data : ByteArray} (hwidth : 0 < width)
    (h : data.size = count * width) :
    (List.ofFn fun i : Fin count => bytesAt width data i).flatten = data.data.toList := by
  have hrows : ∀ row ∈ List.ofFn fun i : Fin count => bytesAt width data i,
      row.length = width := fun row hrow => by
    rcases List.mem_ofFn.mp hrow with ⟨i, rfl⟩
    exact length_bytesAt width data i
  have hlength : data.data.toList.length = count * width := by
    rw [Array.length_toList]
    exact h
  refine List.ext_getElem? fun j => ?_
  by_cases hj : j < count * width
  · -- The index splits into the sample and the byte of it.
    have hrow : j / width < count := Nat.div_lt_of_lt_mul (by rwa [Nat.mul_comm])
    have hplace := Nat.mod_lt j hwidth
    rw [← Nat.div_add_mod' j width, getElem?_flatten_of_rows hrows _ hplace, List.getElem?_ofFn,
      dif_pos hrow, Option.bind_some, bytesAt, List.getElem?_ofFn, dif_pos hplace, get!_eq_getD,
      Nat.div_add_mod' j width, List.getElem?_eq_getElem (by omega), Option.getD_some]
  · rw [List.getElem?_eq_none, List.getElem?_eq_none (by omega)]
    rw [length_flatten_of_rows hrows, List.length_ofFn]
    omega

theorem ofLowBytes_bytesAt (width : ℕ) (data : ByteArray) (n : ℕ) :
    ofLowBytes (bytesAt width data n) = sampleNumber width data n := by
  rw [ofLowBytes_eq_sum, length_bytesAt, sampleNumber]
  refine Finset.sum_congr rfl fun i hi => ?_
  have hi := Finset.mem_range.mp hi
  simp [bytesAt, hi]

/-- The samples of bytes. -/
def cellsOfBytes (t : WholeType) (data : ByteArray) : Array t.Sample :=
  Array.ofFn fun i : Fin (data.size / t.width.bytes) =>
    t.wrap (ofLowBytes (bytesAt t.width.bytes data i))

theorem size_cellsOfBytes {t : WholeType} {data : ByteArray} (h : data.size % t.width.bytes = 0) :
    data.size = (cellsOfBytes t data).size * t.width.bytes := by
  rw [cellsOfBytes, Array.size_ofFn, Nat.div_mul_cancel (Nat.dvd_of_mod_eq_zero h)]

theorem samplesOfBytes_eq (t : WholeType) (data : ByteArray) :
    samplesOfBytes t data =
      if data.size % t.width.bytes ≠ 0 then .error .partialSample else .ok (cellsOfBytes t data) :=
  rfl

section

variable {t : WholeType} (ht : t.isSigned = false)
include ht

/-- A sample that has been made of bytes is the number that they make up. -/
theorem val_cellsOfBytes {data : ByteArray} {i : ℕ} (hi : i < (cellsOfBytes t data).size) :
    (cellsOfBytes t data)[i].val = sampleNumber t.width.bytes data i := by
  have hholds := WholeType.holds_ofLowBytes ht (length_bytesAt t.width.bytes data i)
  simp only [cellsOfBytes, Array.getElem_ofFn]
  rw [WholeType.wrap_eq hholds, ← ofLowBytes_bytesAt]

/-- Samples that have been made of bytes give these bytes. -/
theorem flatMap_cellsOfBytes {data : ByteArray} (h : data.size % t.width.bytes = 0) :
    (cellsOfBytes t data).toList.flatMap t.sampleBytes = data.data.toList := by
  have hcount : data.size = data.size / t.width.bytes * t.width.bytes :=
    (Nat.div_mul_cancel (Nat.dvd_of_mod_eq_zero h)).symm
  rw [← flatten_bytesAt t.width.bytes_pos hcount, List.flatMap_def, cellsOfBytes,
    Array.toList_ofFn, List.map_ofFn]
  congr 2
  exact funext fun i => WholeType.sampleBytes_wrap ht (length_bytesAt _ _ _)

theorem length_of_mem_sampleBytes {cells : Array t.Sample} {row : List UInt8}
    (h : row ∈ cells.toList.map t.sampleBytes) : row.length = t.width.bytes := by
  rcases List.mem_map.mp h with ⟨s, -, rfl⟩
  exact WholeType.length_sampleBytes ht s

theorem length_flatMap_sampleBytes (cells : Array t.Sample) :
    (cells.toList.flatMap t.sampleBytes).length = cells.size * t.width.bytes := by
  rw [List.flatMap_def, length_flatten_of_rows fun _ => length_of_mem_sampleBytes ht,
    List.length_map, Array.length_toList]

/-- The bytes of a sample stand where they are looked for. -/
theorem bytesAt_flatMap (cells : Array t.Sample) {i : ℕ} (hi : i < cells.size) :
    bytesAt t.width.bytes ⟨(cells.toList.flatMap t.sampleBytes).toArray⟩ i =
      t.sampleBytes cells[i] := by
  refine List.ext_getElem? fun k => ?_
  by_cases hk : k < t.width.bytes
  · rw [bytesAt, List.getElem?_ofFn, dif_pos hk, get!_eq_getD, List.flatMap_def,
      getElem?_flatten_of_rows (fun _ => length_of_mem_sampleBytes ht) i hk, List.getElem?_map,
      Array.getElem?_toList, Array.getElem?_eq_getElem hi, Option.map_some, Option.bind_some,
      List.getElem?_eq_getElem (by rwa [WholeType.length_sampleBytes ht]), Option.getD_some]
  · rw [List.getElem?_eq_none (by rw [length_bytesAt]; omega),
      List.getElem?_eq_none (by rw [WholeType.length_sampleBytes ht]; omega)]

/-- Bytes of samples make up the same samples. -/
theorem samplesOfBytes_flatMap (cells : Array t.Sample) :
    samplesOfBytes t ⟨(cells.toList.flatMap t.sampleBytes).toArray⟩ = .ok cells := by
  have hsize : (⟨(cells.toList.flatMap t.sampleBytes).toArray⟩ : ByteArray).size =
      cells.size * t.width.bytes := length_flatMap_sampleBytes ht cells
  rw [samplesOfBytes_eq, hsize, Nat.mul_mod_left, if_neg (not_not.mpr rfl), cellsOfBytes]
  refine congrArg Except.ok (Array.ext ?_ fun i hi hcells => ?_)
  · rw [Array.size_ofFn, hsize, Nat.mul_div_cancel _ t.width.bytes_pos]
  · rw [Array.getElem_ofFn, bytesAt_flatMap ht cells hcells, WholeType.ofLowBytes_sampleBytes ht,
      WholeType.wrap_val]

end

/-! ### Dimensions -/

section

variable {t : WholeType} {cells : Array t.Sample}

theorem volume_of_three (height width channels : ℕ) :
    volume [height, width, channels] = height * width * channels := by
  simp [volume, Nat.mul_assoc]

/-- Dimensions that a picture can have are taken as they are. -/
theorem ofCells_eq_ok {height width channels : ℕ} (hsize : cells.size = height * width * channels)
    (h : Samples.IsPossible t.width.bytes [height, width, channels]) :
    ofCells t cells width height channels =
      .ok ⟨height, width, channels, .whole t, cells, hsize⟩ := by
  have hvolume : cells.size = volume [height, width, channels] := by
    rw [hsize, volume_of_three]
  have hshape := Samples.resolveShape_eq_ok t.width.bytes_pos hvolume.symm h
  have hreshape : Samples.reshape ⟨.whole t, [cells.size], cells, (Nat.mul_one _).symm⟩
      [(height : ℤ), width, channels] =
        .ok ⟨.whole t, [height, width, channels], cells, hvolume⟩ :=
    ok_bind_iff.mpr ⟨_, hshape, Samples.match_ofCells? hvolume _⟩
  have hexpected : (cells.size : ℤ) = width * height * channels := by
    rw [hsize]
    push_cast
    ring
  rw [ofCells, if_neg (not_not.mpr hexpected)]
  exact ok_bind_iff.mpr ⟨_, hreshape, rfl⟩

/-- Whatever dimensions are taken, a picture can have them. -/
theorem of_ofCells_eq_ok {width height channels : ℤ} {b : PixelBuffer}
    (h : ofCells t cells width height channels = .ok b) :
    (0 ≤ height ∧ 0 ≤ width ∧ 0 ≤ channels) ∧ (cells.size : ℤ) = width * height * channels ∧
      Samples.IsPossible t.width.bytes [height.toNat, width.toNat, channels.toNat] := by
  unfold ofCells at h
  simp only at h
  split_ifs at h with hexpected
  have hexpected := not_not.mp hexpected
  rcases ok_bind_iff.mp h with ⟨a, hreshape, -⟩
  rcases ok_bind_iff.mp hreshape with ⟨shape, hshape, -⟩
  have hprod : [height, width, channels].prod = (cells.size : ℤ) := by
    rw [hexpected]
    simp only [List.prod_cons, List.prod_nil]
    ring
  have hnonneg : ∀ size ∈ [height, width, channels], 0 ≤ size := fun size hsize =>
    not_lt.mp fun hneg => Samples.resolveShape_of_neg hprod ⟨size, hsize, hneg⟩ hshape
  simp only [List.mem_cons, List.not_mem_nil, or_false, forall_eq_or_imp, forall_eq] at hnonneg
  have hcast : [height, width, channels] =
      [height.toNat, width.toNat, channels.toNat].map Nat.cast := by
    simp [Int.toNat_of_nonneg hnonneg.1, Int.toNat_of_nonneg hnonneg.2.1,
      Int.toNat_of_nonneg hnonneg.2.2]
  rw [hcast] at hshape
  exact ⟨hnonneg, hexpected, Samples.isPossible_of_resolveShape hshape⟩

theorem ofCells_fails (width height channels : ℤ) :
    FailsOnly (·.kind = .badValue) (ofCells t cells width height channels) := by
  unfold ofCells
  simp only
  split_ifs
  · exact failsOnly_error rfl
  refine FailsOnly.bind ((Samples.resolveShape_fails _ _ _).bind fun shape _ => ?_) fun a _ => ?_
  · split
    · exact failsOnly_ok _
    · exact failsOnly_error rfl
  · unfold ofSamples
    split
    · exact failsOnly_ok _
    · exact failsOnly_error rfl

end

/-! ### Packing -/

/-- The type of samples of a depth. -/
def IsDepth (t : WholeType) (bits : ℤ) : Prop :=
  (t = .byte ∧ bits = 8) ∨ (t = .word ∧ bits = 16)

namespace IsDepth

variable {t : WholeType} {bits : ℤ} (ht : IsDepth t bits)
include ht

theorem depthType?_eq : depthType? bits = some t := by
  rcases ht with ⟨rfl, rfl⟩ | ⟨rfl, rfl⟩ <;> rfl

theorem isSigned_eq : t.isSigned = false := by
  rcases ht with ⟨rfl, -⟩ | ⟨rfl, -⟩ <;> rfl

theorem bits_eq : bits = t.width.bytes * 8 := by
  rcases ht with ⟨rfl, rfl⟩ | ⟨rfl, rfl⟩ <;> rfl

end IsDepth

/-- The picture of bytes, when its dimensions and its depth are whole numbers. -/
def packed (data : ByteArray) (width height channels bits : ℤ) : Except Failure PixelBuffer :=
  ofInterleaved (.bytes data) (.whole width) (.whole height) (.whole channels) (.whole bits)

/-- Bytes are as many as a picture of dimensions and a depth has. -/
structure HasSize (data : ByteArray) (width height channels bits : ℤ) : Prop where
  width_nonneg : 0 ≤ width
  height_nonneg : 0 ≤ height
  channels_nonneg : 0 ≤ channels
  size_eq : (data.size : ℤ) = width * height * channels * bits / 8

/-- A picture has dimensions, a depth and the samples that bytes make up, and gives these bytes. -/
structure IsPictureOf (b : PixelBuffer) (data : ByteArray) (width height channels bits : ℤ) :
    Prop where
  width_eq : (b.width : ℤ) = width
  height_eq : (b.height : ℤ) = height
  channels_eq : (b.channels : ℤ) = channels
  type_eq : ∃ t, IsDepth t bits ∧ b.type = .whole t
  samples_eq : ∀ y x k, b.type.whole? (b.sample y x k) =
    some (sampleNumber b.type.bytes data (b.sampleIndex y x k) : ℤ)
  bytes_eq : b.toBytes = data

section

variable {t : WholeType} {data : ByteArray} {bits : ℤ} (ht : IsDepth t bits)
include ht

theorem packed_eq (width height channels : ℤ) :
    packed data width height channels bits = (do
      let cells ← samplesOfBytes t data
      let expected := width * height * channels
      if (cells.size : ℤ) ≠ expected then
        .error (.sampleCount expected (← (Value.whole width).asText)
          (← (Value.whole height).asText) (← (Value.whole channels).asText) cells.size)
      else ofCells t cells width height channels) := by
  have hbits : (Value.whole bits).toWhole = .ok bits := rfl
  simp only [packed, ofInterleaved, hbits, bind, Except.bind, ht.depthType?_eq]
  rfl

theorem packed_fails (width height channels : ℤ) :
    FailsOnly (·.kind = .badValue) (packed data width height channels bits) := by
  have hshown : ∀ n : ℤ, FailsOnly (·.kind = .badValue) (Value.whole n).asText := fun n =>
    (Value.wholeText_fails n).mono (by rintro _ rfl; rfl)
  rw [packed_eq ht]
  refine FailsOnly.bind ?_ fun cells _ => ?_
  · rw [samplesOfBytes_eq]
    split_ifs
    · exact failsOnly_error rfl
    · exact failsOnly_ok _
  · simp only
    split_ifs
    · exact (hshown width).bind fun _ _ => (hshown height).bind fun _ _ =>
        (hshown channels).bind fun _ _ => failsOnly_error rfl
    · exact ofCells_fails width height channels

/-- Bytes that samples are made of are packed, if a picture can have the dimensions. -/
theorem packed_eq_ok {cells : Array t.Sample} {width height channels : ℕ}
    (hcells : samplesOfBytes t data = .ok cells) (hsize : cells.size = height * width * channels)
    (h : Samples.IsPossible t.width.bytes [height, width, channels]) :
    packed data width height channels bits =
      .ok ⟨height, width, channels, .whole t, cells, hsize⟩ := by
  have hexpected : (cells.size : ℤ) = width * height * channels := by
    rw [hsize]
    push_cast
    ring
  rw [packed_eq ht, hcells]
  show ite _ _ _ = _
  rw [if_neg (not_not.mpr hexpected)]
  exact ofCells_eq_ok hsize h

/-- Bytes that are packed make up samples, and a picture can have the dimensions. -/
theorem of_packed_eq_ok {width height channels : ℤ} {b : PixelBuffer}
    (h : packed data width height channels bits = .ok b) :
    data.size % t.width.bytes = 0 ∧ (0 ≤ height ∧ 0 ≤ width ∧ 0 ≤ channels) ∧
      ((cellsOfBytes t data).size : ℤ) = width * height * channels ∧
      Samples.IsPossible t.width.bytes [height.toNat, width.toNat, channels.toNat] := by
  rw [packed_eq ht] at h
  rcases ok_bind_iff.mp h with ⟨cells, hcells, h⟩
  rw [samplesOfBytes_eq] at hcells
  split_ifs at hcells with hwhole
  cases hcells
  simp only at h
  split_ifs at h with hexpected
  · simp only [ok_bind_iff] at h
    rcases h with ⟨_, -, _, -, _, -, h⟩
    cases h
  · exact ⟨not_not.mp hwhole, of_ofCells_eq_ok h⟩

/-- The number of bytes counts the samples. -/
theorem size_eq_iff {width height channels : ℕ} :
    (data.size : ℤ) = width * height * channels * bits / 8 ↔
      data.size = height * width * channels * t.width.bytes := by
  rw [ht.bits_eq, ← mul_assoc, Int.mul_ediv_cancel _ (by decide), mul_comm (width : ℤ)]
  exact_mod_cast Iff.rfl

theorem bytes_of_bits : (bits / 8).toNat = t.width.bytes := by
  rw [ht.bits_eq, Int.mul_ediv_cancel _ (by decide), Int.toNat_natCast]

theorem packed_isOk_iff (width height channels : ℤ) :
    (∃ b, packed data width height channels bits = .ok b) ↔
      HasSize data width height channels bits ∧
        Samples.IsPossible (bits / 8).toNat [height.toNat, width.toNat, channels.toNat] := by
  rw [bytes_of_bits ht]
  constructor
  · rintro ⟨b, h⟩
    rcases of_packed_eq_ok ht h with ⟨hwhole, ⟨hheight, hwidth, hchannels⟩, hcount, hpossible⟩
    refine ⟨⟨hwidth, hheight, hchannels, ?_⟩, hpossible⟩
    rw [ht.bits_eq, ← mul_assoc, Int.mul_ediv_cancel _ (by decide), ← hcount]
    exact_mod_cast size_cellsOfBytes hwhole
  · rintro ⟨⟨hwidth, hheight, hchannels, hsize⟩, hpossible⟩
    lift width to ℕ using hwidth
    lift height to ℕ using hheight
    lift channels to ℕ using hchannels
    have hsize := (size_eq_iff ht).mp hsize
    have hwhole : data.size % t.width.bytes = 0 := by rw [hsize, Nat.mul_mod_left]
    have hcount : (cellsOfBytes t data).size = height * width * channels :=
      Nat.eq_of_mul_eq_mul_right t.width.bytes_pos ((size_cellsOfBytes hwhole).symm.trans hsize)
    exact ⟨_, packed_eq_ok ht (if_neg (not_not.mpr hwhole)) hcount hpossible⟩

/-- A picture that is packed is a picture of the bytes. -/
theorem isPictureOf_of_packed {width height channels : ℤ} {b : PixelBuffer}
    (h : packed data width height channels bits = .ok b) :
    IsPictureOf b data width height channels bits := by
  rcases of_packed_eq_ok ht h with ⟨hwhole, ⟨hheight, hwidth, hchannels⟩, hcount, hpossible⟩
  lift width to ℕ using hwidth
  lift height to ℕ using hheight
  lift channels to ℕ using hchannels
  have hsize : (cellsOfBytes t data).size = height * width * channels := by
    rw [mul_comm height]
    exact_mod_cast hcount
  have hpacked := packed_eq_ok ht (if_neg (not_not.mpr hwhole)) hsize hpossible
  cases hpacked.symm.trans h
  exact
    { width_eq := rfl
      height_eq := rfl
      channels_eq := rfl
      type_eq := ⟨t, ht, rfl⟩
      samples_eq := fun y x k => congrArg some (val_cellsOfBytes ht.isSigned_eq _)
      bytes_eq := ByteArray.ext (Array.ext' (flatMap_cellsOfBytes ht.isSigned_eq hwhole)) }

/-- The bytes of a picture are packed into the picture. -/
theorem packed_toBytes {b : PixelBuffer} (hb : b.type = .whole t)
    (h : Samples.IsPossible b.type.bytes [b.height, b.width, b.channels]) :
    packed b.toBytes b.width b.height b.channels bits = .ok b := by
  rcases b with ⟨height, width, channels, type, cells, hsize⟩
  cases hb
  exact packed_eq_ok ht (samplesOfBytes_flatMap ht.isSigned_eq cells) hsize h

/-- Bytes that are there and that a machine can hold leave a picture no impossible dimensions. -/
theorem isPossible_of_hasSize {width height channels : ℤ}
    (h : HasSize data width height channels bits) (hpos : 0 < data.size)
    (hlt : data.size < machineLimit.toNat) :
    Samples.IsPossible (bits / 8).toNat [height.toNat, width.toNat, channels.toNat] := by
  rcases h with ⟨hwidth, hheight, hchannels, hsize⟩
  lift width to ℕ using hwidth
  lift height to ℕ using hheight
  lift channels to ℕ using hchannels
  have hbytes : data.size = t.width.bytes * volume [height, width, channels] := by
    rw [(size_eq_iff ht).mp hsize, volume_of_three, mul_comm]
  rw [bytes_of_bits ht]
  exact Samples.isPossible_of_pos (Nat.pos_of_mul_pos_left (hbytes ▸ hpos)) (hbytes ▸ hlt)

end

/-- Bytes are packed into a picture exactly if no dimension is negative, the bytes are as many as
    the picture has, and a picture can have the dimensions, which only matters where there are no
    bytes. Otherwise they are a bad value. The samples of the picture are the numbers that the
    bytes make up in order, the lowest byte first, and unpacked they are the same bytes. The other
    way round, the bytes of every picture of bytes or words are packed into the same picture. -/
theorem packed_inverts_toBytes :
    (∀ (data : ByteArray) (width height channels bits : ℤ), bits = 8 ∨ bits = 16 →
      ((∃ b, packed data width height channels bits = .ok b) ↔
        HasSize data width height channels bits ∧
          Samples.IsPossible (bits / 8).toNat [height.toNat, width.toNat, channels.toNat]) ∧
      (0 < data.size → data.size < machineLimit.toNat →
        ((∃ b, packed data width height channels bits = .ok b) ↔
          HasSize data width height channels bits)) ∧
      (∀ failure, packed data width height channels bits = .error failure →
        failure.kind = .badValue) ∧
      ∀ b, packed data width height channels bits = .ok b →
        IsPictureOf b data width height channels bits) ∧
    ∀ b : PixelBuffer, b.type = .whole .byte ∨ b.type = .whole .word →
      Samples.IsPossible b.type.bytes [b.height, b.width, b.channels] →
        packed b.toBytes b.width b.height b.channels b.bits = .ok b := by
  refine ⟨fun data width height channels bits hbits => ?_, fun b hb hpossible => ?_⟩
  · have hdepth : ∃ t, IsDepth t bits := by
      rcases hbits with rfl | rfl
      · exact ⟨.byte, Or.inl ⟨rfl, rfl⟩⟩
      · exact ⟨.word, Or.inr ⟨rfl, rfl⟩⟩
    rcases hdepth with ⟨t, ht⟩
    have hiff : (∃ b, packed data width height channels bits = .ok b) ↔ _ :=
      packed_isOk_iff ht width height channels
    refine ⟨hiff, fun hpos hlt => hiff.trans ?_, packed_fails ht width height channels,
      fun b => isPictureOf_of_packed ht⟩
    exact and_iff_left_of_imp fun h => isPossible_of_hasSize ht h hpos hlt
  · have hdepth : ∃ t, IsDepth t b.bits ∧ b.type = .whole t := by
      rcases hb with hb | hb
      · exact ⟨.byte, Or.inl ⟨rfl, by rw [bits, hb]; rfl⟩, hb⟩
      · exact ⟨.word, Or.inr ⟨rfl, by rw [bits, hb]; rfl⟩, hb⟩
    rcases hdepth with ⟨t, ht, htype⟩
    exact packed_toBytes ht htype hpossible

/-- Two words, one below the other. -/
def twoWords : PixelBuffer where
  height := 2
  width := 1
  channels := 1
  type := .whole .word
  cells := #[WholeType.word.wrap 1, WholeType.word.wrap 65534]
  size_eq := rfl

theorem packed_inverts_toBytes_twoWords :
    (∃ b, packed ⟨#[1, 0, 254, 255]⟩ 1 2 1 16 = .ok b ∧ b.toBytes = ⟨#[1, 0, 254, 255]⟩) ∧
      packed twoWords.toBytes 1 2 1 16 = .ok twoWords := by
  constructor
  · rcases packed_inverts_toBytes.1 ⟨#[1, 0, 254, 255]⟩ 1 2 1 16 (Or.inr rfl) with
      ⟨-, hiff, -, hpicture⟩
    rcases (hiff (by decide) (by decide)).mpr
      ⟨by decide, by decide, by decide, by decide⟩ with ⟨b, hb⟩
    exact ⟨b, hb, (hpicture b hb).bytes_eq⟩
  · exact packed_inverts_toBytes.2 twoWords (Or.inr rfl) (by decide)

/-- Without bytes, a picture of no rows could be as wide as one likes, but for the machine word. -/
theorem packed_fails_of_wide :
    ¬((∃ b, packed ⟨#[]⟩ (2 ^ 63) 0 1 8 = .ok b) ↔ HasSize ⟨#[]⟩ (2 ^ 63) 0 1 8) := by
  have hsize : HasSize ⟨#[]⟩ (2 ^ 63) 0 1 8 := ⟨by decide, by decide, by decide, by decide⟩
  have hfails : packed ⟨#[]⟩ (2 ^ 63) 0 1 8 = .error .dimensionTooLarge := rfl
  intro h
  rcases h.mpr hsize with ⟨b, hb⟩
  cases hfails.symm.trans hb

end PixelBuffer

end Darkroom
