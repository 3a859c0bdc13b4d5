import Darkroom.Proofs.Tone.Factors
import Darkroom.Proofs.Tone.RoundTrip

/-!
# Levels of Adjusted Pixels

What an adjustment does to the greatest and the least sample of a pixel.

The factors replace the saturation of a colour by another one, and the levels go to the reach of
that saturation, up to what rounding to bytes may add. On either side of the lightness that is less
than one sample. So the sum of the levels, twice the lightness, changes by less than two, and being
whole by one at most. And a level that the factors move outwards, or leave where it is, cannot come
out further inside than it was: it would have to pass a whole sample. The same holds inwards.

No bound on the factors is needed but that they are finite. The largest ones leave no saturation but
zero and one.

## Main definitions

* `ByteColour.LevelsAt`: The levels of a colour are near the reach of a saturation of another one.
* `ByteColour.AdjustsTo`: What is true of the colour that an adjustment makes of another.
* `PixelBuffer.ColourAt`: The colour of a pixel in a picture.
* `PixelBuffer.PixelsBecome`: Every pixel of a picture is related to the one in its place.

## Theorems

* `ByteColour.exists_pixel`: What the factors make of a pixel.
* `ByteColour.LevelsAt.adjustsTo`: Lightness and direction, from the levels.
* `PixelBuffer.adjust_preserves_lightness`: The lightness of every pixel of a picture.
* `PixelBuffer.adjust_moves_levels`: The direction of its levels.
-/

namespace Darkroom

open Binary

namespace ByteColour

/-- The levels of `t'` are where the saturation `σ` puts those of `t`, as nearly as bytes allow. -/
structure LevelsAt (t t' : ByteColour) (σ : ℚ) : Prop where
  top : |(t'.top : ℚ) - 255 * (t.mean + t.reach σ)| ≤ 19 / 20
  bottom : |(t'.bottom : ℚ) - 255 * (t.mean - t.reach σ)| ≤ 19 / 20

/-- The colour `t'` has the lightness of `t`, and its levels lie in the direction of the knobs. -/
structure AdjustsTo (a : Adjustment) (t t' : ByteColour) : Prop where
  lightness : |((t'.top + t'.bottom : ℕ) : ℤ) - (t.top + t.bottom : ℕ)| ≤ 1
  raised : a.saturation.isAtLeastZero = true → a.vibrance.isAtLeastZero = true →
    t.top ≤ t'.top ∧ t'.bottom ≤ t.bottom
  lowered : a.saturation.isAtMostZero = true → a.vibrance.isAtMostZero = true →
    t'.top ≤ t.top ∧ t.bottom ≤ t'.bottom

variable {t t' : ByteColour} {σ s : ℚ}

/-- Samples near the moved shares have their levels near the moved levels. -/
theorem levelsAt_of_near (h0 : 0 ≤ σ) (hgrey : t.bottom = t.top → σ = 0)
    (hr : |(t'.red : ℚ) - 255 * t.moved σ t.r| ≤ 19 / 20)
    (hg : |(t'.green : ℚ) - 255 * t.moved σ t.g| ≤ 19 / 20)
    (hb : |(t'.blue : ℚ) - 255 * t.moved σ t.b| ≤ 19 / 20) : t.LevelsAt t' σ := by
  have hmono : Monotone fun q => 255 * t.moved σ q := fun p q hpq =>
    mul_le_mul_of_nonneg_left (t.moved_mono h0 hpq) (by norm_num)
  -- The greatest of the moved shares is that of the greatest share, and so is the least.
  have hmax := (hmono.map_max (a := max t.r t.g) (b := t.b))
  have hmin := (hmono.map_min (a := min t.r t.g) (b := t.b))
  simp only [t.max_shares, hmono.map_max (a := t.r), t.moved_greatest hgrey] at hmax
  simp only [t.min_shares, hmono.map_min (a := t.r), t.moved_least] at hmin
  constructor
  · rw [top, hmax]
    push_cast
    exact (abs_max_sub_max_le_max _ _ _ _).trans
      (max_le ((abs_max_sub_max_le_max _ _ _ _).trans (max_le hr hg)) hb)
  · rw [bottom, hmin]
    push_cast
    exact (abs_min_sub_min_le_max _ _ _ _).trans
      (max_le ((abs_min_sub_min_le_max _ _ _ _).trans (max_le hr hg)) hb)

/-- A share between the levels is moved to a share. -/
theorem moved_unit (h0 : 0 ≤ σ) (h1 : σ ≤ 1) (hgrey : t.bottom = t.top → σ = 0) {n : ℕ}
    (hn : t.bottom ≤ n ∧ n ≤ t.top) : 0 ≤ t.moved σ (n / 255) ∧ t.moved σ (n / 255) ≤ 1 := by
  have hlow := t.moved_mono h0 (share_mono hn.1)
  have hhigh := t.moved_mono h0 (share_mono hn.2)
  have hleast := t.moved_least σ
  have hgreatest := t.moved_greatest hgrey
  rcases t.reach_le h1 with ⟨hdown, hup⟩
  rw [least] at hleast
  rw [greatest] at hgreatest
  exact ⟨by linarith, by linarith⟩

/-- What the factors make of a pixel: samples whose levels are those of the new saturation. -/
theorem exists_pixel (t : ByteColour) {blend : Blend} (hb : blend.IsFinite) :
    ∃ t' : ByteColour, blend.pixel (ofInt t.red) (ofInt t.green) (ofInt t.blue) =
        (t'.red, t'.green, t'.blue) ∧
      ∃ s σ, |s - t.exactSaturation| ≤ 2560 * roundoff ∧ blend.Takes s σ ∧ t.LevelsAt t' σ := by
  rcases t.exists_saturation with ⟨s, hs, h0, h1, hd, hnone⟩
  rcases Blend.exists_apply hb hs h0 h1 with ⟨σ, hσ, htakes⟩
  have hgrey : t.bottom = t.top → σ = 0 := fun h => htakes.zero (hnone h)
  rcases near_withSaturation hσ htakes.nonneg htakes.le_one hgrey with ⟨hr, hg, hb⟩
  have hunit {n : ℕ} (hn : t.bottom ≤ n ∧ n ≤ t.top) :=
    t.moved_unit htakes.nonneg htakes.le_one hgrey hn
  have hroom : 29000 * roundoff ≤ 1 / 600 := by norm_num [roundoff]
  rcases byteOfUnit_near (hr.mono hroom) (hunit t.red_mem).1 (hunit t.red_mem).2 with ⟨hr255, hr⟩
  rcases byteOfUnit_near (hg.mono hroom) (hunit t.green_mem).1 (hunit t.green_mem).2 with
    ⟨hg255, hg⟩
  rcases byteOfUnit_near (hb.mono hroom) (hunit t.blue_mem).1 (hunit t.blue_mem).2 with
    ⟨hb255, hb⟩
  exact ⟨⟨_, _, _, hr255, hg255, hb255⟩, rfl, s, σ, hd, htakes,
    levelsAt_of_near htakes.nonneg hgrey hr hg hb⟩

/-- Whole numbers less than one apart are not apart. -/
theorem le_of_sub_lt_one {m n : ℕ} (h : (m : ℚ) - n < 1) : m ≤ n := by
  have hlt : (m : ℚ) < (n + 1 : ℕ) := by
    push_cast
    linarith
  have := Nat.cast_lt.mp hlt
  omega

/-- The levels of a colour, counted in samples. -/
theorem levels_eq (t : ByteColour) :
    (t.top : ℚ) = 255 * (t.mean + t.reach t.exactSaturation) ∧
      (t.bottom : ℚ) = 255 * (t.mean - t.reach t.exactSaturation) := by
  have hspread := t.spread_eq_reach
  rw [mean]
  rw [greatest, least] at *
  exact ⟨by linarith, by linarith⟩

/-- The mean does not depend on the saturation, so the sum of the levels changes by rounding
    only. -/
theorem LevelsAt.lightness (h : t.LevelsAt t' σ) :
    |((t'.top + t'.bottom : ℕ) : ℤ) - (t.top + t.bottom : ℕ)| ≤ 1 := by
  rcases t.levels_eq with ⟨htop, hbottom⟩
  rcases abs_le.mp h.top with ⟨ht1, ht2⟩
  rcases abs_le.mp h.bottom with ⟨hb1, hb2⟩
  have hsum : |((t'.top + t'.bottom : ℕ) : ℚ) - (t.top + t.bottom : ℕ)| < 2 := by
    push_cast
    exact abs_lt.mpr ⟨by linarith, by linarith⟩
  have hwhole : |((t'.top + t'.bottom : ℕ) : ℤ) - (t.top + t.bottom : ℕ)| < 2 := by
    exact_mod_cast hsum
  omega

section

variable (h : t.LevelsAt t' σ) (hs : |s - t.exactSaturation| ≤ 2560 * roundoff)
include h hs

/-- A greater saturation moves the levels outwards. -/
theorem LevelsAt.outwards (hle : s ≤ σ) : t.top ≤ t'.top ∧ t'.bottom ≤ t.bottom := by
  have hsmall := roundoff_le
  have hreach := t.reach_mono hle
  rcases t.levels_eq with ⟨htop, hbottom⟩
  have hnear := (abs_le.mp (t.abs_reach_sub_le hs)).1
  have houter := (abs_le.mp h.top).1
  have hinner := (abs_le.mp h.bottom).2
  exact ⟨le_of_sub_lt_one (by linarith), le_of_sub_lt_one (by linarith)⟩

/-- A smaller one moves them inwards. -/
theorem LevelsAt.inwards (hle : σ ≤ s) : t'.top ≤ t.top ∧ t.bottom ≤ t'.bottom := by
  have hsmall := roundoff_le
  have hreach := t.reach_mono hle
  rcases t.levels_eq with ⟨htop, hbottom⟩
  have hnear := (abs_le.mp (t.abs_reach_sub_le hs)).2
  have houter := (abs_le.mp h.top).2
  have hinner := (abs_le.mp h.bottom).1
  exact ⟨le_of_sub_lt_one (by linarith), le_of_sub_lt_one (by linarith)⟩

/-- Lightness and direction, from where the levels are. -/
theorem LevelsAt.adjustsTo {a : Adjustment} {blend : Blend} (htakes : blend.Takes s σ)
    (hup : a.saturation.isAtLeastZero = true → a.vibrance.isAtLeastZero = true → blend.Raises)
    (hdown : a.saturation.isAtMostZero = true → a.vibrance.isAtMostZero = true → blend.Lowers) :
    t.AdjustsTo a t' where
  lightness := h.lightness
  raised hsat hvib := h.outwards hs (htakes.raised (hup hsat hvib))
  lowered hsat hvib := h.inwards hs (htakes.lowered (hdown hsat hvib))

end

end ByteColour

/-- A sample of 8 bits is what a number up to 255 becomes. -/
theorem SampleType.exists_byte {type : SampleType} (htype : type = .whole .byte)
    (cell : type.Sample) :
    ∃ n : ℕ, n ≤ 255 ∧ cell = type.ofByte n ∧ type.toSingle cell = ofInt n := by
  subst htype
  rcases WholeType.exists_byte cell with ⟨n, hn, hcell⟩
  exact ⟨n, hn, (SampleType.ofByte_eq hcell).symm, congrArg ofInt hcell⟩

namespace PixelBuffer

/-- The first three samples of a pixel in a picture. -/
structure ColourAt (b : PixelBuffer) (y x : ℕ) (t : ByteColour) : Prop where
  red : b.cells[b.sampleIndex y x 0]? = some (b.type.ofByte t.red)
  green : b.cells[b.sampleIndex y x 1]? = some (b.type.ofByte t.green)
  blue : b.cells[b.sampleIndex y x 2]? = some (b.type.ofByte t.blue)

/-- A pixel of bytes has one colour. -/
theorem ColourAt.unique {b : PixelBuffer} {y x : ℕ} {t t' : ByteColour}
    (hbyte : b.type = .whole .byte) (h : b.ColourAt y x t) (h' : b.ColourAt y x t') : t = t' := by
  rcases b with ⟨height, width, channels, type, cells, hsize⟩
  subst hbyte
  have hsame {m n : ℕ} (hm : m ≤ 255) (hn : n ≤ 255)
      (heq : some ((SampleType.whole .byte).ofByte m) = some ((SampleType.whole .byte).ofByte n)) :
      m = n := by
    have hval : ((m : ℤ) - 0) % 256 + 0 = (n - 0) % 256 + 0 :=
      congrArg Subtype.val (Option.some.inj heq)
    omega
  have hred := hsame t.red_le t'.red_le (h.red.symm.trans h'.red)
  have hgreen := hsame t.green_le t'.green_le (h.green.symm.trans h'.green)
  have hblue := hsame t.blue_le t'.blue_le (h.blue.symm.trans h'.blue)
  cases t
  cases t'
  simp only at hred hgreen hblue
  subst hred hgreen hblue
  rfl

/-- A picture has the form of another one, and each of its pixels is related to the one in its
    place. -/
structure PixelsBecome (related : ByteColour → ByteColour → Prop) (b b' : PixelBuffer) : Prop where
  height : b'.height = b.height
  width : b'.width = b.width
  channels : b'.channels = b.channels
  type : b'.type = b.type
  pixel : ∀ y < b.height, ∀ x < b.width,
    ∃ t t', b.ColourAt y x t ∧ b'.ColourAt y x t' ∧ related t t'

variable {b b' : PixelBuffer} {blend : Blend} {a : Adjustment}

theorem PixelsBecome.mono {related related' : ByteColour → ByteColour → Prop}
    (h : PixelsBecome related b b') (hle : ∀ t t', related t t' → related' t t') :
    PixelsBecome related' b b' where
  height := h.height
  width := h.width
  channels := h.channels
  type := h.type
  pixel y hy x hx := by
    rcases h.pixel y hy x hx with ⟨t, t', ht, ht', hrelated⟩
    exact ⟨t, t', ht, ht', hle t t' hrelated⟩

theorem getElem?_sampleIndex (y : Fin b.height) (x : Fin b.width) (k : Fin b.channels) :
    b.cells[b.sampleIndex y x k]? = some (b.sample y x k) :=
  Array.getElem?_eq_getElem (sampleIndex_lt y x k)

theorem red_lt (hc : 3 ≤ b.channels) : 0 < b.channels := by omega

theorem green_lt (hc : 3 ≤ b.channels) : 1 < b.channels := by omega

theorem blue_lt (hc : 3 ≤ b.channels) : 2 < b.channels := by omega

/-- Every pixel of a picture of bytes has a colour, which its first three samples are. -/
theorem exists_colourAt (hbyte : b.type = .whole .byte) (hc : 3 ≤ b.channels) (y : Fin b.height)
    (x : Fin b.width) :
    ∃ t, b.ColourAt y x t ∧ b.type.toSingle (b.sample y x ⟨0, red_lt hc⟩) = ofInt t.red ∧
      b.type.toSingle (b.sample y x ⟨1, green_lt hc⟩) = ofInt t.green ∧
      b.type.toSingle (b.sample y x ⟨2, blue_lt hc⟩) = ofInt t.blue := by
  have hcell := SampleType.exists_byte hbyte
  rcases hcell (b.sample y x ⟨0, red_lt hc⟩) with ⟨red, hr, hred, hred'⟩
  rcases hcell (b.sample y x ⟨1, green_lt hc⟩) with ⟨green, hg, hgreen, hgreen'⟩
  rcases hcell (b.sample y x ⟨2, blue_lt hc⟩) with ⟨blue, hb, hblue, hblue'⟩
  refine ⟨⟨red, green, blue, hr, hg, hb⟩, ⟨?_, ?_, ?_⟩, hred', hgreen', hblue'⟩
  · rw [← hred, ← getElem?_sampleIndex]
  · rw [← hgreen, ← getElem?_sampleIndex]
  · rw [← hblue, ← getElem?_sampleIndex]

/-- The pixels of an adjusted picture are what the factors make of the pixels. -/
theorem adjusted_pixelsBecome {related : ByteColour → ByteColour → Prop}
    (hbyte : b.type = .whole .byte) (hc : 3 ≤ b.channels)
    (hpixel : ∀ t : ByteColour, ∃ t' : ByteColour,
      blend.pixel (ofInt t.red) (ofInt t.green) (ofInt t.blue) = (t'.red, t'.green, t'.blue) ∧
        related t t') :
    PixelsBecome related b (b.adjusted blend) where
  height := rfl
  width := rfl
  channels := rfl
  type := rfl
  pixel y hy x hx := by
    rcases exists_colourAt hbyte hc ⟨y, hy⟩ ⟨x, hx⟩ with ⟨t, ht, hred, hgreen, hblue⟩
    rcases hpixel t with ⟨t', ht', hrelated⟩
    have hsample (k : Fin b.channels) := @sample_adjusted blend b hc ⟨y, hy⟩ ⟨x, hx⟩ k
    simp only [hred, hgreen, hblue, ht'] at hsample
    have hcell (k : Fin b.channels) :=
      getElem?_sampleIndex (b := b.adjusted blend) ⟨y, hy⟩ ⟨x, hx⟩ k
    refine ⟨t, t', ht, ⟨?_, ?_, ?_⟩, hrelated⟩
    · exact (hcell ⟨0, red_lt hc⟩).trans (congrArg some (hsample ⟨0, red_lt hc⟩))
    · exact (hcell ⟨1, green_lt hc⟩).trans (congrArg some (hsample ⟨1, green_lt hc⟩))
    · exact (hcell ⟨2, blue_lt hc⟩).trans (congrArg some (hsample ⟨2, blue_lt hc⟩))

/-- An adjustment with finite factors succeeds, and every pixel comes out with its lightness and
    with its levels in the direction of the knobs. -/
theorem exists_adjust (hbyte : b.type = .whole .byte) (hc : 3 ≤ b.channels) (ha : a.IsFinite)
    {rows : Option Number} (hrows : IsRowCount rows) :
    ∃ b', b.adjust a rows = .ok b' ∧ PixelsBecome (ByteColour.AdjustsTo a) b b' := by
  rcases a.exists_blend ha with ⟨blend, hblend, hfinite, hup, hdown⟩
  refine ⟨b.adjusted blend, adjust_eq_adjusted hbyte hc hrows hblend,
    adjusted_pixelsBecome hbyte hc fun t => ?_⟩
  rcases t.exists_pixel hfinite with ⟨t', hpixel, s, σ, hs, htakes, hlevels⟩
  exact ⟨t', hpixel, hlevels.adjustsTo hs htakes hup hdown⟩

/-- Adjusting keeps lightness. For knobs that stand for finite factors, the greatest and the least
    of a pixel's first three samples have nearly the sum that they had: it changes by one at
    most. -/
theorem adjust_preserves_lightness (b : PixelBuffer) (hbyte : b.type = .whole .byte)
    (hc : 3 ≤ b.channels) (a : Adjustment) (ha : a.IsFinite) (rows : Option Number)
    (hrows : IsRowCount rows) :
    ∃ b', b.adjust a rows = .ok b' ∧
      PixelsBecome
        (fun t t' => |((t'.top + t'.bottom : ℕ) : ℤ) - (t.top + t.bottom : ℕ)| ≤ 1) b b' := by
  rcases exists_adjust hbyte hc ha hrows with ⟨b', hok, hpixels⟩
  exact ⟨b', hok, hpixels.mono fun _ _ h => h.lightness⟩

theorem adjust_preserves_lightness_onePixel :
    ∃ b', onePixel.adjust ⟨1, 0⟩ none = .ok b' ∧
      PixelsBecome
        (fun t t' => |((t'.top + t'.bottom : ℕ) : ℤ) - (t.top + t.bottom : ℕ)| ≤ 1) onePixel b' :=
  adjust_preserves_lightness onePixel rfl (by decide) ⟨1, 0⟩
    ⟨⟨_, rfl, by decide⟩, ⟨_, rfl, by decide⟩⟩ none fun _ h => by cases h

/-- Adjusting moves the levels where the knobs point. With both knobs at zero or above the greatest
    of a pixel's first three samples does not sink and the least does not rise; with both at zero or
    below it is the other way round. -/
theorem adjust_moves_levels (b : PixelBuffer) (hbyte : b.type = .whole .byte)
    (hc : 3 ≤ b.channels) (a : Adjustment) (ha : a.IsFinite) (rows : Option Number)
    (hrows : IsRowCount rows) :
    ∃ b', b.adjust a rows = .ok b' ∧
      (a.saturation.isAtLeastZero = true → a.vibrance.isAtLeastZero = true →
        PixelsBecome (fun t t' => t.top ≤ t'.top ∧ t'.bottom ≤ t.bottom) b b') ∧
      (a.saturation.isAtMostZero = true → a.vibrance.isAtMostZero = true →
        PixelsBecome (fun t t' => t'.top ≤ t.top ∧ t.bottom ≤ t'.bottom) b b') := by
  rcases exists_adjust hbyte hc ha hrows with ⟨b', hok, hpixels⟩
  exact ⟨b', hok, fun hsat hvib => hpixels.mono fun _ _ h => h.raised hsat hvib,
    fun hsat hvib => hpixels.mono fun _ _ h => h.lowered hsat hvib⟩

theorem adjust_moves_levels_onePixel :
    (∃ b', onePixel.adjust ⟨1, 0⟩ none = .ok b' ∧
      PixelsBecome (fun t t' => t.top ≤ t'.top ∧ t'.bottom ≤ t.bottom) onePixel b') ∧
    ∃ b', onePixel.adjust ⟨.whole (-1), 0⟩ (some 5) = .ok b' ∧
      PixelsBecome (fun t t' => t'.top ≤ t.top ∧ t.bottom ≤ t'.bottom) onePixel b' := by
  rcases adjust_moves_levels onePixel rfl (by decide) ⟨1, 0⟩
    ⟨⟨_, rfl, by decide⟩, ⟨_, rfl, by decide⟩⟩ none (fun _ h => by cases h) with ⟨b', hok, hup, -⟩
  rcases adjust_moves_levels onePixel rfl (by decide) ⟨.whole (-1), 0⟩
    ⟨⟨_, rfl, by decide⟩, ⟨_, rfl, by decide⟩⟩ (some 5)
    (fun _ h => ⟨5, by decide, (Option.some.inj h).symm⟩) with ⟨c', hok', -, hdown⟩
  exact ⟨⟨b', hok, hup rfl rfl⟩, c', hok', hdown rfl rfl⟩

end PixelBuffer

end Darkroom
