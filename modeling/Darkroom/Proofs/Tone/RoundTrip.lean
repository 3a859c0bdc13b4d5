import Darkroom.Proofs.Samples.Rows
import Darkroom.Proofs.Tone.OtherSaturation
import Darkroom.Proofs.Tone.Pixelwise

/-!
# Colours There and Back

The samples of a pixel, turned into hue, saturation and lightness and back with no knob in between,
are the same samples. So leaving the work out when both knobs are at zero changes nothing.

A colour is found again between the levels of its own saturation: the exact conversion gives its
shares, and the rounded one strays from them by less than what it takes to reach another sample.

## Theorems

* `ByteColour.near_toRgb`: Shares come back nearly as they were.
* `ByteColour.byteOfUnit_toRgb`: The three samples are found again.
* `PixelBuffer.adjusted_without_knobs`: A picture of bytes, adjusted without a factor.
* `PixelBuffer.adjust_eq_adjusted`: What comes out is a map over the pixels, whatever the knobs are.
* `PixelBuffer.copy_is_adjusted`: The picture that is handed back is what the work would have made.
-/

namespace Darkroom

open Binary

namespace ByteColour

/-- The intensities come back near the shares. With the colour's own saturation, which is near the
    exact one, the shares are hardly moved. -/
theorem near_toRgb (t : ByteColour) :
    Near t.shares.toHsl.toRgb.red t.r (1 / 600) ∧ Near t.shares.toHsl.toRgb.green t.g (1 / 600) ∧
      Near t.shares.toHsl.toRgb.blue t.b (1 / 600) := by
  rcases t.exists_saturation with ⟨s, hs, h0, h1, hd, hgrey⟩
  rcases near_withSaturation hs h0 h1 hgrey with ⟨hr, hg, hb⟩
  have hstray {n : ℕ} (hn : t.bottom ≤ n ∧ n ≤ t.top) :
      |t.moved s (n / 255) - n / 255| ≤ 2560 * roundoff := by
    have hmoved := t.abs_moved_sub_le (share_mono hn.1) (share_mono hn.2) hd
    rwa [t.moved_exactSaturation (share_mono hn.1) (share_mono hn.2)] at hmoved
  exact ⟨hr.congr (hstray t.red_mem) (by norm_num [roundoff]),
    hg.congr (hstray t.green_mem) (by norm_num [roundoff]),
    hb.congr (hstray t.blue_mem) (by norm_num [roundoff])⟩

/-- The samples of a colour are found again. -/
theorem byteOfUnit_toRgb (t : ByteColour) :
    byteOfUnit t.shares.toHsl.toRgb.red = t.red ∧ byteOfUnit t.shares.toHsl.toRgb.green = t.green ∧
      byteOfUnit t.shares.toHsl.toRgb.blue = t.blue := by
  rcases t.near_toRgb with ⟨hr, hg, hb⟩
  exact ⟨byteOfUnit_eq_of_near t.red_le hr, byteOfUnit_eq_of_near t.green_le hg,
    byteOfUnit_eq_of_near t.blue_le hb⟩

/-- Without factors a pixel is found again. -/
theorem pixel_without_knobs (t : ByteColour) :
    Blend.pixel ⟨none, none⟩ (ofInt t.red) (ofInt t.green) (ofInt t.blue) =
      (t.red, t.green, t.blue) := by
  rcases t.byteOfUnit_toRgb with ⟨hr, hg, hb⟩
  exact Prod.ext hr (Prod.ext hg hb)

end ByteColour

/-- A sample of 8 bits is a number up to 255. -/
theorem WholeType.exists_byte (s : WholeType.byte.Sample) : ∃ n : ℕ, n ≤ 255 ∧ s.val = n := by
  have hlow : 0 ≤ s.val := s.property.1
  have hhigh : s.val < 0 + 256 := s.property.2
  exact ⟨s.val.toNat, by omega, by omega⟩

theorem SampleType.ofByte_eq {s : WholeType.byte.Sample} {n : ℕ} (h : s.val = n) :
    (SampleType.whole .byte).ofByte n = s := by
  rw [← WholeType.wrap_val s, h]
  rfl

/-- Without factors every sample of bytes stays. -/
theorem adjustedSample_without_knobs {channels : ℕ} (cells : Array (SampleType.whole .byte).Sample)
    (i : ℕ) :
    adjustedSample ⟨none, none⟩ (.whole .byte) channels cells i = cells.getD i default := by
  have hsplit := Nat.div_add_mod' i channels
  unfold adjustedSample
  generalize i / channels * channels = first at hsplit ⊢
  rcases WholeType.exists_byte (cells.getD first default) with ⟨r, hr, hred⟩
  rcases WholeType.exists_byte (cells.getD (first + 1) default) with ⟨g, hg, hgreen⟩
  rcases WholeType.exists_byte (cells.getD (first + 2) default) with ⟨b, hb, hblue⟩
  have hpixel := ByteColour.pixel_without_knobs ⟨r, g, b, hr, hg, hb⟩
  simp only [SampleType.toSingle, hred, hgreen, hblue, hpixel]
  -- In each of the first three channels the index is the place of the sample itself.
  split
  · rw [SampleType.ofByte_eq hred]
    congr 1
    omega
  · rw [SampleType.ofByte_eq hgreen]
    congr 1
    omega
  · rw [SampleType.ofByte_eq hblue]
    congr 1
    omega
  · rfl

namespace PixelBuffer

/-- Without factors every picture of bytes stays. -/
theorem adjusted_without_knobs {b : PixelBuffer} (hbyte : b.type = .whole .byte) :
    b.adjusted ⟨none, none⟩ = b := by
  rcases b with ⟨height, width, channels, type, cells, hsize⟩
  subst hbyte
  unfold adjusted adjustedTo
  congr 1
  refine Array.ext (by simp) fun i _ hi => ?_
  rw [getElem_adjustedCells _ _ _ hi, adjustedSample_without_knobs, ite_eq_right_iff]
  intro _
  simp [hi]

theorem blend_of_isIdentity {a : Adjustment} (ha : a.isIdentity = true) :
    a.blend = .ok ⟨none, none⟩ := by
  rcases Bool.and_eq_true_iff.mp ha with ⟨hs, hv⟩
  unfold Adjustment.blend Adjustment.scale Adjustment.vibranceFactor
  rw [if_pos hs, if_pos hv]
  rfl

/-- Every picture of bytes is adjusted pixel by pixel. Where it is handed back, without factors or
    without rows, there is nothing to change. -/
theorem adjust_eq_adjusted {b : PixelBuffer} (hbyte : b.type = .whole .byte) (hc : 3 ≤ b.channels)
    {a : Adjustment} {rows : Option Number} (hrows : IsRowCount rows) {blend : Blend}
    (hblend : a.blend = .ok blend) : b.adjust a rows = .ok (b.adjusted blend) := by
  rw [adjust_eq hbyte hc a hrows]
  split_ifs with hidentity hempty
  · rw [blend_of_isIdentity hidentity] at hblend
    cases hblend
    rw [adjusted_without_knobs hbyte]
  · rw [adjusted_of_empty hempty]
  · rw [hblend]
    rfl

/-- With both knobs at zero the picture is handed back, and this is what the work would have made:
    every colour of bytes is found again after the conversion there and back, so the chunks of rows
    would leave the picture as it is. -/
theorem copy_is_adjusted :
    (∀ red green blue : ℕ, red ≤ 255 → green ≤ 255 → blue ≤ 255 →
      let shares : Rgb := ⟨toUnit (ofInt red), toUnit (ofInt green), toUnit (ofInt blue)⟩
      let back := shares.toHsl.toRgb
      (byteOfUnit back.red, byteOfUnit back.green, byteOfUnit back.blue) = (red, green, blue)) ∧
    ∀ b : PixelBuffer, b.type = .whole .byte → 3 ≤ b.channels →
      ∀ a : Adjustment, a.isIdentity = true →
        (∀ rows, IsRowCount rows → b.adjust a rows = .ok b) ∧
        ∃ blend, a.blend = .ok blend ∧
          ∀ step (hstep : 0 < step), b.adjustChunks blend step hstep 0 = b := by
  refine ⟨fun red green blue hr hg hb => ?_, fun b hbyte hc a ha => ⟨fun rows hrows => ?_, ?_⟩⟩
  · exact ByteColour.pixel_without_knobs ⟨red, green, blue, hr, hg, hb⟩
  · rw [adjust_eq hbyte hc a hrows, if_pos ha]
  · refine ⟨_, blend_of_isIdentity ha, fun step hstep => ?_⟩
    rw [adjustChunks_eq hc, adjusted_without_knobs hbyte]

theorem copy_is_adjusted_onePixel :
    (byteOfUnit (Rgb.toHsl ⟨toUnit (ofInt 10), toUnit (ofInt 200), toUnit (ofInt 30)⟩).toRgb.green =
      200) ∧
    onePixel.adjust ⟨0, 0⟩ none = .ok onePixel ∧
    ∃ blend, Adjustment.blend ⟨0, 0⟩ = .ok blend ∧
      onePixel.adjustChunks blend 3 (by decide) 0 = onePixel := by
  rcases copy_is_adjusted with ⟨hcolour, hpicture⟩
  rcases hpicture onePixel rfl (by decide) ⟨0, 0⟩ rfl with ⟨hcopy, blend, hblend, hchunks⟩
  have hback := hcolour 10 200 30 (by decide) (by decide) (by decide)
  exact ⟨congrArg (fun c => c.2.1) hback, hcopy none (fun _ h => by cases h), blend, hblend,
    hchunks 3 (by decide)⟩

end PixelBuffer

end Darkroom
