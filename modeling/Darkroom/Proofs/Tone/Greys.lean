import Darkroom.Proofs.Tone.Levels

/-!
# Greys

Pixels that an adjustment leaves grey, or makes grey.

Both are pixels whose saturation comes out as zero. A grey pixel has none to begin with, and no
factor makes any of nothing. A knob that takes all saturation away has a first factor of zero or
less; what that step leaves nothing of, the second step does not bring back, whatever its weight is
and whether or not the zero has a sign.

Without saturation the three samples are one, the sample nearest to the lightness. The lightness has
been rounded, but strays by much less than what separates it from the second nearest sample. So the
sample is one of the two around the middle of the levels, and where the levels are equal it is their
sample.

## Main definitions

* `ByteColour.IsGrey`: The three samples are one.

## Theorems

* `Blend.pixel_of_isZero`: A pixel without saturation has one sample.
* `ByteColour.exists_grey`: Its sample is in the middle of the levels.
* `PixelBuffer.adjust_keeps_greys`: Grey pixels stay.
* `PixelBuffer.adjust_desaturates`: Without saturation all pixels become grey.
-/

namespace Darkroom

open Binary

/-- A pixel without saturation has one sample, the nearest to its lightness. -/
theorem Blend.pixel_of_isZero {blend : Blend} {red green blue : Single}
    (h : (blend.apply (Rgb.saturation ⟨toUnit red, toUnit green, toUnit blue⟩)).isZero = true) :
    let level := byteOfUnit (Rgb.lightness ⟨toUnit red, toUnit green, toUnit blue⟩)
    blend.pixel red green blue = (level, level, level) := by
  have hgrey : (blend.colour (Rgb.toHsl ⟨toUnit red, toUnit green, toUnit blue⟩)).toRgb =
      let l := Rgb.lightness ⟨toUnit red, toUnit green, toUnit blue⟩
      ⟨l, l, l⟩ := if_pos h
  unfold pixel
  rw [hgrey]

namespace ByteColour

/-- The three samples are one. -/
structure IsGrey (t : ByteColour) (v : ℕ) : Prop where
  red : t.red = v
  green : t.green = v
  blue : t.blue = v

theorem IsGrey.levels {t : ByteColour} {v : ℕ} (h : t.IsGrey v) : t.top = v ∧ t.bottom = v := by
  rw [top, bottom, h.red, h.green, h.blue]
  exact ⟨by simp, by simp⟩

/-- The sample nearest to the lightness is in the middle of the levels, or next to it. -/
theorem byteOfUnit_lightness (t : ByteColour) :
    byteOfUnit t.shares.lightness ≤ 255 ∧
      |2 * (byteOfUnit t.shares.lightness : ℤ) - (t.top + t.bottom : ℕ)| ≤ 1 := by
  have hlight : Near t.shares.lightness t.mean (1 / 600) :=
    t.near_lightness.mono (by norm_num [roundoff])
  rcases byteOfUnit_near hlight t.mean_nonneg t.mean_le_one with ⟨hle, hd⟩
  refine ⟨hle, ?_⟩
  -- Doubled, the sample strays from the sum of the levels by less than two, and both are whole.
  rw [t.mean_eq] at hd
  rcases abs_le.mp hd with ⟨hlow, hhigh⟩
  have hdouble : |((2 * (byteOfUnit t.shares.lightness : ℤ) - (t.top + t.bottom : ℕ) : ℤ) : ℚ)| < 2
      := by
    push_cast at hlow hhigh ⊢
    exact abs_lt.mpr ⟨by linarith, by linarith⟩
  have hwhole : |2 * (byteOfUnit t.shares.lightness : ℤ) - (t.top + t.bottom : ℕ)| < 2 := by
    exact_mod_cast hdouble
  omega

/-- A colour that is left without saturation becomes grey, in the middle of its levels. -/
theorem exists_grey (t : ByteColour) {blend : Blend}
    (h : (blend.apply t.shares.saturation).Denotes 0) :
    ∃ t' : ByteColour, blend.pixel (ofInt t.red) (ofInt t.green) (ofInt t.blue) =
        (t'.red, t'.green, t'.blue) ∧
      ∃ v : ℕ, t'.IsGrey v ∧ |2 * (v : ℤ) - (t.top + t.bottom : ℕ)| ≤ 1 := by
  rcases t.byteOfUnit_lightness with ⟨hle, hmiddle⟩
  exact ⟨⟨_, _, _, hle, hle, hle⟩, Blend.pixel_of_isZero (h.isZero_iff.mpr rfl), _, ⟨rfl, rfl, rfl⟩,
    hmiddle⟩

/-- A grey colour is found again, whatever the factors are. -/
theorem exists_grey_of_isGrey {t : ByteColour} {v : ℕ} (ht : t.IsGrey v) {blend : Blend}
    (hb : blend.IsFinite) :
    ∃ t' : ByteColour, blend.pixel (ofInt t.red) (ofInt t.green) (ofInt t.blue) =
      (t'.red, t'.green, t'.blue) ∧ t'.IsGrey v := by
  rcases ht.levels with ⟨htop, hbottom⟩
  rcases t.exists_saturation with ⟨s, hs, h0, h1, -, hnone⟩
  rcases Blend.exists_apply hb hs h0 h1 with ⟨σ, hσ, htakes⟩
  rw [htakes.zero (hnone (hbottom.trans htop.symm))] at hσ
  rcases t.exists_grey hσ with ⟨t', hpixel, w, hgrey, hmiddle⟩
  rw [htop, hbottom, abs_le] at hmiddle
  have hw : w = v := by omega
  exact ⟨t', hpixel, hw ▸ hgrey⟩

/-- With a first factor of zero or less every colour becomes grey. -/
theorem exists_grey_of_nonpos (t : ByteColour) {blend : Blend} {c w : ℚ}
    (hb : blend.HasFactors c w) (hc : c ≤ 0) :
    ∃ t' : ByteColour, blend.pixel (ofInt t.red) (ofInt t.green) (ofInt t.blue) =
        (t'.red, t'.green, t'.blue) ∧
      ∃ v : ℕ, t'.IsGrey v ∧ |2 * (v : ℤ) - (t.top + t.bottom : ℕ)| ≤ 1 := by
  rcases t.exists_saturation with ⟨s, hs, h0, h1, -⟩
  have happly := hb.denotes_apply hs ⟨hs.representable, h0, h1⟩
  rw [blended_of_stepped w (stepped_of_nonpos h0 hc)] at happly
  exact t.exists_grey happly

end ByteColour

/-- A knob that takes all saturation away has a first factor of zero or less. -/
theorem Adjustment.scaleValue_nonpos {p : ℚ} (h : p ≤ -1) : scaleValue p ≤ 0 := by
  have hknob : binary64.round p ≤ -1 :=
    BinaryFormat.round_le_of_le denotes_one_double.representable.neg h
  exact BinaryFormat.round_le_of_le BinaryFormat.representable_zero
    (BinaryFormat.round_le_of_le BinaryFormat.representable_zero (by linarith))

namespace PixelBuffer

/-- Grey pixels stay. For knobs that stand for finite factors, a pixel whose first three samples are
    one comes out with this sample three times. -/
theorem adjust_keeps_greys (b : PixelBuffer) (hbyte : b.type = .whole .byte) (hc : 3 ≤ b.channels)
    (a : Adjustment) (ha : a.IsFinite) (rows : Option Number) (hrows : IsRowCount rows) :
    ∃ b', b.adjust a rows = .ok b' ∧
      PixelsBecome (fun t t' => ∀ v, t.IsGrey v → t'.IsGrey v) b b' := by
  rcases a.exists_blend ha with ⟨blend, hblend, hfinite, -⟩
  refine ⟨b.adjusted blend, adjust_eq_adjusted hbyte hc hrows hblend,
    adjusted_pixelsBecome hbyte hc fun t => ?_⟩
  by_cases hgrey : t.IsGrey t.red
  · rcases ByteColour.exists_grey_of_isGrey hgrey hfinite with ⟨t', hpixel, ht'⟩
    exact ⟨t', hpixel, fun v hv => hv.red ▸ ht'⟩
  · -- Of the other pixels nothing is claimed but that they come out as bytes.
    rcases t.exists_pixel hfinite with ⟨t', hpixel, -⟩
    exact ⟨t', hpixel, fun v hv => absurd (hv.red ▸ hv) hgrey⟩

/-- A picture of one grey pixel. -/
def greyPixel : PixelBuffer where
  height := 1
  width := 1
  channels := 3
  type := .whole .byte
  cells := #[WholeType.byte.wrap 77, WholeType.byte.wrap 77, WholeType.byte.wrap 77]
  size_eq := rfl

theorem adjust_keeps_greys_greyPixel :
    ∃ b', greyPixel.adjust ⟨1, 1⟩ (some 5) = .ok b' ∧
      PixelsBecome (fun t t' => ∀ v, t.IsGrey v → t'.IsGrey v) greyPixel b' :=
  adjust_keeps_greys greyPixel rfl (by decide) ⟨1, 1⟩ ⟨⟨_, rfl, by decide⟩, ⟨_, rfl, by decide⟩⟩
    (some 5) fun _ h => ⟨5, by decide, (Option.some.inj h).symm⟩

/-- Without saturation all pixels become grey. For a first knob of minus one or less and any second
    one, as long as they stand for finite factors, every pixel comes out with one sample, which is
    in the middle of the greatest and the least that it had, or next to it. -/
theorem adjust_desaturates (b : PixelBuffer) (hbyte : b.type = .whole .byte) (hc : 3 ≤ b.channels)
    (a : Adjustment) (ha : a.IsFinite) (p : ℚ) (hp : a.saturation.Denotes p) (hp1 : p ≤ -1)
    (rows : Option Number) (hrows : IsRowCount rows) :
    ∃ b', b.adjust a rows = .ok b' ∧
      PixelsBecome
        (fun t t' => ∃ v : ℕ, t'.IsGrey v ∧ |2 * (v : ℤ) - (t.top + t.bottom : ℕ)| ≤ 1) b b' := by
  rcases ha.exists_values with ⟨-, q, -, hq⟩
  rcases Adjustment.exists_factors ha hp hq with ⟨blend, hblend, hfactors⟩
  exact ⟨b.adjusted blend, adjust_eq_adjusted hbyte hc hrows hblend,
    adjusted_pixelsBecome hbyte hc fun t =>
      t.exists_grey_of_nonpos hfactors (Adjustment.scaleValue_nonpos hp1)⟩

theorem adjust_desaturates_onePixel :
    ∃ b', onePixel.adjust ⟨.whole (-1), 1⟩ none = .ok b' ∧
      PixelsBecome
        (fun t t' => ∃ v : ℕ, t'.IsGrey v ∧ |2 * (v : ℤ) - (t.top + t.bottom : ℕ)| ≤ 1)
        onePixel b' :=
  adjust_desaturates onePixel rfl (by decide) ⟨.whole (-1), 1⟩
    ⟨⟨_, rfl, by decide⟩, ⟨_, rfl, by decide⟩⟩ (-1) (by simp [Number.Denotes]) le_rfl none
    fun _ h => by cases h

end PixelBuffer

end Darkroom
