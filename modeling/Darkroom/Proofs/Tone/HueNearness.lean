import Darkroom.Proofs.Tone.Intensity

/-!
# Hue, Saturation and Lightness of Bytes

A colour of three samples of 8 bits, worked out in 24 bits, has nearly its exact hue, saturation and
lightness.

The shares of samples are rounded, but in order: equal samples have equal shares, and a greater
sample has a greater share. Every decision that only compares shares is therefore the exact one. The
distances between shares are a 255th at least, unless they are zero; this is what keeps the
quotients of the conversion from straying.

## Main definitions

* `ByteColour`: Three samples of 8 bits.
* `ByteColour.shares`: Their shares, rounded.

## Theorems

* `ByteColour.near_hue`, `ByteColour.near_saturation`, `ByteColour.near_lightness`: The colour
  model.
* `ByteColour.near_turns`: The turns of the other two channels.
* `ByteColour.toHsl_of_grey`: Grey has neither hue nor saturation.
-/

namespace Darkroom

open Binary

/-- Three samples of 8 bits. -/
structure ByteColour where
  red : ℕ
  green : ℕ
  blue : ℕ
  red_le : red ≤ 255
  green_le : green ≤ 255
  blue_le : blue ≤ 255

theorem near_share_sub {m n : ℕ} (hm : m ≤ 255) (hn : n ≤ 255) :
    Near (toUnit (ofInt m) - toUnit (ofInt n)) (m / 255 - n / 255) (4 * roundoff) := by
  rcases share_unit hm with ⟨hm0, hm1⟩
  rcases share_unit hn with ⟨hn0, hn1⟩
  have hsize : |(m : ℚ) / 255 - n / 255| ≤ 1 := abs_le.mpr ⟨by linarith, by linarith⟩
  exact (near_toUnit hm).sub 1 (near_toUnit hn) (by linarith [roundoff_le])
    (by norm_num [roundoff]) (by omega)

namespace ByteColour

variable (t : ByteColour)

/-- The exact shares. -/
def r : ℚ := t.red / 255
def g : ℚ := t.green / 255
def b : ℚ := t.blue / 255

/-- The shares, rounded. -/
def shares : Rgb := ⟨toUnit (ofInt t.red), toUnit (ofInt t.green), toUnit (ofInt t.blue)⟩

/-- The greatest and the least sample. -/
def top : ℕ := max (max t.red t.green) t.blue
def bottom : ℕ := min (min t.red t.green) t.blue

/-- The greatest and the least exact share. -/
def greatest : ℚ := t.top / 255
def least : ℚ := t.bottom / 255

theorem top_le : t.top ≤ 255 := max_le (max_le t.red_le t.green_le) t.blue_le

theorem bottom_le_top : t.bottom ≤ t.top := by
  simp [top, bottom]

theorem least_nonneg : 0 ≤ t.least := (share_unit (t.bottom_le_top.trans t.top_le)).1

theorem greatest_le_one : t.greatest ≤ 1 := (share_unit t.top_le).2

theorem least_le_greatest : t.least ≤ t.greatest := by
  have : (t.bottom : ℚ) ≤ t.top := by exact_mod_cast t.bottom_le_top
  rw [least, greatest]
  gcongr

theorem share_mono {m n : ℕ} (h : m ≤ n) : (m : ℚ) / 255 ≤ n / 255 := by gcongr

theorem max_shares : max (max t.r t.g) t.b = t.greatest := by
  have hmono : Monotone fun n : ℕ => (n : ℚ) / 255 := fun _ _ => share_mono
  rw [r, g, b, greatest, top, hmono.map_max (a := max t.red t.green), hmono.map_max (a := t.red)]

theorem min_shares : min (min t.r t.g) t.b = t.least := by
  have hmono : Monotone fun n : ℕ => (n : ℚ) / 255 := fun _ _ => share_mono
  rw [r, g, b, least, bottom, hmono.map_min (a := min t.red t.green), hmono.map_min (a := t.red)]

theorem spreadOf_eq : spreadOf t.r t.g t.b = t.greatest - t.least := by
  rw [spreadOf, max_shares, min_shares]

theorem denotes_greatest : t.shares.greatest.Denotes (shareValue t.top) := by
  rw [top, shareValue_mono.map_max, shareValue_mono.map_max]
  exact ((denotes_toUnit t.red_le).maximum (denotes_toUnit t.green_le)).maximum
    (denotes_toUnit t.blue_le)

theorem denotes_least : t.shares.least.Denotes (shareValue t.bottom) := by
  rw [bottom, shareValue_mono.map_min, shareValue_mono.map_min]
  exact ((denotes_toUnit t.red_le).minimum (denotes_toUnit t.green_le)).minimum
    (denotes_toUnit t.blue_le)

theorem near_greatest : Near t.shares.greatest (t.greatest) roundoff :=
  ⟨_, t.denotes_greatest, abs_shareValue_sub_le t.top_le⟩

theorem near_least : Near t.shares.least (t.least) roundoff :=
  ⟨_, t.denotes_least, abs_shareValue_sub_le (t.bottom_le_top.trans t.top_le)⟩

theorem red_mem : t.bottom ≤ t.red ∧ t.red ≤ t.top := by
  simp [bottom, top]

theorem green_mem : t.bottom ≤ t.green ∧ t.green ≤ t.top := by
  simp [bottom, top]

theorem blue_mem : t.bottom ≤ t.blue ∧ t.blue ≤ t.top := by
  simp [bottom, top]

/-- Shares differ by the spread at most. -/
theorem abs_share_sub_le {x y : ℕ} (hx : t.bottom ≤ x ∧ x ≤ t.top) (hy : t.bottom ≤ y ∧ y ≤ t.top) :
    |(x : ℚ) / 255 - y / 255| ≤ t.greatest - t.least := by
  have h1 := share_mono hx.1
  have h2 := share_mono hx.2
  have h3 := share_mono hy.1
  have h4 := share_mono hy.2
  rw [greatest, least]
  exact abs_le.mpr ⟨by linarith, by linarith⟩

/-- Which sample is the greatest, the rounded shares tell as well as the exact ones. -/
theorem greatest_equal_iff {n : ℕ} (hn : n ≤ t.top) :
    t.shares.greatest.equal (toUnit (ofInt n)) = true ↔ n = t.top := by
  rw [t.denotes_greatest.equal_iff (denotes_toUnit (hn.trans t.top_le))]
  refine ⟨fun heq => ?_, fun heq => by rw [heq]⟩
  by_contra hne
  exact (shareValue_lt (lt_of_le_of_ne hn hne) t.top_le).ne' heq

theorem greatest_eq_share_iff {n : ℕ} : t.greatest = n / 255 ↔ n = t.top := by
  rw [greatest, div_left_inj' (by norm_num), Nat.cast_inj, eq_comm]

theorem toUnit_lt_iff {m n : ℕ} (hm : m ≤ 255) (hn : n ≤ 255) :
    toUnit (ofInt m) < toUnit (ofInt n) ↔ m < n := by
  rw [(denotes_toUnit hm).lt_iff (denotes_toUnit hn)]
  refine ⟨fun h => ?_, fun h => shareValue_lt h hn⟩
  by_contra hge
  exact (shareValue_mono (not_lt.mp hge)).not_gt h

theorem share_lt_iff {m n : ℕ} : (m : ℚ) / 255 < n / 255 ↔ m < n := by
  rw [div_lt_div_iff_of_pos_right (by norm_num), Nat.cast_lt]

theorem greatest_equal_red : t.shares.greatest.equal t.shares.red = true ↔ t.greatest = t.r :=
  (t.greatest_equal_iff t.red_mem.2).trans t.greatest_eq_share_iff.symm

theorem greatest_equal_green : t.shares.greatest.equal t.shares.green = true ↔ t.greatest = t.g :=
  (t.greatest_equal_iff t.green_mem.2).trans t.greatest_eq_share_iff.symm

theorem green_lt_blue : t.shares.green < t.shares.blue ↔ t.g < t.b :=
  (toUnit_lt_iff t.green_le t.blue_le).trans share_lt_iff.symm

theorem near_total :
    Near (t.shares.greatest + t.shares.least) (t.greatest + t.least) (6 * roundoff) := by
  have hm := t.least_nonneg
  have hM := t.greatest_le_one
  have hle := t.least_le_greatest
  refine t.near_greatest.add 2 t.near_least ?_ (by norm_num [roundoff]) (by omega)
  rw [abs_of_nonneg (by linarith)]
  linarith [roundoff_le]

theorem abs_mean_le_one : |(t.greatest + t.least) / 2| ≤ 1 := by
  have hm := t.least_nonneg
  have hM := t.greatest_le_one
  have hle := t.least_le_greatest
  rw [abs_of_nonneg (by linarith)]
  linarith

theorem near_lightness :
    Near t.shares.lightness ((t.greatest + t.least) / 2) (5 * roundoff) := by
  exact t.near_total.div 1 (denotes_two.near le_rfl) (le_abs_self 2) (by norm_num) t.abs_mean_le_one
    (by norm_num [roundoff]) (by norm_num [roundoff]) (by omega)

/-- A lightness below one half is not above it, so the saturation is that of darker colours. -/
theorem not_half_lt (h : t.shares.lightness < half) : ¬half < t.shares.lightness := by
  rcases t.near_lightness with ⟨l, hl, -⟩
  rw [hl.lt_iff denotes_half] at h
  rw [denotes_half.lt_iff hl]
  exact lt_asymm h

/-- The exact saturation. Which of the two quotients it is, the rounded lightness decides. -/
def exactSaturation : ℚ :=
  (t.greatest - t.least) /
    if half < t.shares.lightness then 2 - t.greatest - t.least else t.greatest + t.least

section

variable {t} (h : t.bottom < t.top)
include h

/-- The shares of a colour that is not grey lie apart. -/
theorem gap_le : 1 / 255 ≤ t.greatest - t.least := by
  have hgap : (t.bottom : ℚ) + 1 ≤ t.top := by exact_mod_cast h
  rw [greatest, least]
  linarith

theorem near_spread :
    Near t.shares.spread (t.greatest - t.least) (4 * roundoff) := by
  have hm := t.least_nonneg
  have hM := t.greatest_le_one
  have hgap := gap_le h
  refine t.near_greatest.sub 1 t.near_least ?_ (by norm_num [roundoff]) (by omega)
  rw [abs_of_nonneg (by linarith)]
  linarith [roundoff_le]

theorem isChromatic_eq : t.shares.isChromatic = true := by
  rcases near_spread h with ⟨v, hv, hd⟩
  have hgap := gap_le h
  have hsmall := roundoff_le
  rw [Rgb.isChromatic, decide_eq_true_iff, denotes_ofNat_zero.lt_iff hv]
  linarith [(abs_le.mp hd).1]

theorem near_rest :
    Near (2 - t.shares.greatest - t.shares.least) (2 - t.greatest - t.least)
      (6 * roundoff) := by
  have hm := t.least_nonneg
  have hM := t.greatest_le_one
  have hgap := gap_le h
  have hsmall := roundoff_le
  have hfirst := (denotes_two.near le_rfl).sub 1 t.near_greatest (ε := 3 * roundoff)
    (by rw [abs_of_nonneg (by linarith)]; linarith) (by linarith) (by omega)
  exact hfirst.sub 1 t.near_least (by rw [abs_of_nonneg (by linarith)]; linarith) (by linarith)
    (by omega)

/-- The exact saturation is a proper share, and not too small. -/
theorem exactSaturation_bounds : 1 / 510 ≤ t.exactSaturation ∧ t.exactSaturation ≤ 1 := by
  have hm := t.least_nonneg
  have hM := t.greatest_le_one
  have hgap := gap_le h
  rw [exactSaturation]
  split_ifs
  · rw [le_div_iff₀ (by linarith), div_le_one (by linarith)]
    exact ⟨by linarith, by linarith⟩
  · rw [le_div_iff₀ (by linarith), div_le_one (by linarith)]
    exact ⟨by linarith, by linarith⟩

theorem near_saturation : Near t.shares.saturation t.exactSaturation (2560 * roundoff) := by
  have hm := t.least_nonneg
  have hM := t.greatest_le_one
  have hgap := gap_le h
  have hsize : |t.exactSaturation| ≤ 1 := by
    have hbounds := exactSaturation_bounds h
    rw [abs_of_nonneg (by linarith [hbounds.1])]
    exact hbounds.2
  rw [Rgb.saturation, if_pos (isChromatic_eq h)]
  unfold exactSaturation at hsize ⊢
  split_ifs at hsize ⊢
  · refine (near_spread h).div 1 (near_rest h) (Q := 1 / 255) ?_ (by norm_num [roundoff]) hsize
      (by norm_num [roundoff]) (by norm_num [roundoff]) (by omega)
    rw [abs_of_nonneg (by linarith)]
    linarith
  · refine (near_spread h).div 1 t.near_total (Q := 1 / 255) ?_ (by norm_num [roundoff]) hsize
      (by norm_num [roundoff]) (by norm_num [roundoff]) (by omega)
    rw [abs_of_nonneg (by linarith)]
    linarith

theorem spread_eq_of_dark (hdark : ¬half < t.shares.lightness) :
    t.greatest - t.least = t.exactSaturation * (t.greatest + t.least) := by
  have hm := t.least_nonneg
  have hgap := gap_le h
  rw [exactSaturation, if_neg hdark, div_mul_cancel₀ _ (by linarith)]

theorem spread_eq_of_bright (hbright : half < t.shares.lightness) :
    t.greatest - t.least = t.exactSaturation * (2 - t.greatest - t.least) := by
  have hM := t.greatest_le_one
  have hgap := gap_le h
  rw [exactSaturation, if_pos hbright, div_mul_cancel₀ _ (by linarith)]

theorem abs_arc_le_one {x y : ℕ} (hx : t.bottom ≤ x ∧ x ≤ t.top) (hy : t.bottom ≤ y ∧ y ≤ t.top) :
    |((x : ℚ) / 255 - y / 255) / (t.greatest - t.least)| ≤ 1 := by
  have hgap := gap_le h
  rw [abs_div, abs_of_pos (by linarith : 0 < t.greatest - t.least), div_le_one (by linarith)]
  exact t.abs_share_sub_le hx hy

/-- The part of a sector that two shares make, with the sector's own place added. -/
theorem near_arc {x y : ℕ} (n : ℕ) (hx : t.bottom ≤ x ∧ x ≤ t.top) (hy : t.bottom ≤ y ∧ y ≤ t.top)
    (hn : n ≤ 6) :
    Near ((toUnit (ofInt x) - toUnit (ofInt y)) / t.shares.spread + OfNat.ofNat n)
      ((x / 255 - y / 255) / (t.greatest - t.least) + n) (2060 * roundoff) := by
  have hgap := gap_le h
  have hd : |t.greatest - t.least| = t.greatest - t.least := abs_of_pos (by linarith)
  have harc := abs_arc_le_one h hx hy
  have hn6 : |(n : ℚ)| ≤ 6 := by
    rw [Nat.abs_cast]
    exact_mod_cast hn
  have hdiff := near_share_sub (hx.2.trans t.top_le) (hy.2.trans t.top_le)
  have hquot := hdiff.div 1 (near_spread h) (Q := 1 / 255) (ε := 2050 * roundoff)
    (by rwa [hd]) (by norm_num [roundoff]) harc (by norm_num [roundoff]) (by norm_num [roundoff])
    (by omega)
  refine hquot.add 3 ((denotes_whole n (hn.trans (by norm_num))).near le_rfl) ?_
    (by norm_num [roundoff]) (by omega)
  have hsize := abs_add_le (((x : ℚ) / 255 - y / 255) / (t.greatest - t.least)) n
  linarith [roundoff_le]

/-- The exact place on the circle. -/
def place (t : ByteColour) : ℚ := circlePlace t.r t.g t.b

theorem near_sector : Near t.shares.sector t.place (2060 * roundoff) := by
  rw [Rgb.sector, place, circlePlace, t.spreadOf_eq, t.max_shares]
  simp only [greatest_equal_red, greatest_equal_green, green_lt_blue]
  split_ifs
  · exact_mod_cast near_arc h 6 t.green_mem t.blue_mem le_rfl
  · exact_mod_cast near_arc h 0 t.green_mem t.blue_mem (by norm_num)
  · exact_mod_cast near_arc h 2 t.blue_mem t.red_mem (by norm_num)
  · exact_mod_cast near_arc h 4 t.red_mem t.green_mem (by norm_num)

theorem arc_of_lt {x y : ℕ} (hlt : x < y) :
    1 / 255 ≤ ((y : ℚ) / 255 - x / 255) / (t.greatest - t.least) := by
  have hgap := gap_le h
  have hm := t.least_nonneg
  have hM := t.greatest_le_one
  have hxy : (x : ℚ) + 1 ≤ y := by exact_mod_cast hlt
  rw [le_div_iff₀ (by linarith)]
  linarith

/-- The place lies on the circle, and away from its end unless it is the beginning. -/
theorem place_bounds (hend : ¬(t.greatest = t.r ∧ t.green = t.blue)) :
    1 / 255 ≤ t.place ∧ t.place ≤ 6 - 1 / 255 := by
  rcases abs_le.mp (abs_arc_le_one h t.green_mem t.blue_mem) with ⟨hgb1, hgb2⟩
  rcases abs_le.mp (abs_arc_le_one h t.blue_mem t.red_mem) with ⟨hbr1, hbr2⟩
  rcases abs_le.mp (abs_arc_le_one h t.red_mem t.green_mem) with ⟨hrg1, hrg2⟩
  unfold place circlePlace
  rw [t.spreadOf_eq, t.max_shares]
  unfold r g b at *
  split_ifs with hred hlt hgreen
  · -- Before red the arc is negative, and six is added.
    have harc := arc_of_lt h (share_lt_iff.mp hlt)
    rw [← neg_sub, neg_div] at harc
    exact ⟨by linarith, by linarith⟩
  · -- After red it is positive, unless green and blue are equal.
    have hne : t.blue ≠ t.green := fun heq => hend ⟨hred, heq.symm⟩
    have harc := arc_of_lt h (lt_of_le_of_ne (not_lt.mp (share_lt_iff.not.mp hlt)) hne)
    exact ⟨by linarith, by linarith⟩
  -- The sectors of green and blue stay away from both ends.
  · exact ⟨by linarith, by linarith⟩
  · exact ⟨by linarith, by linarith⟩

/-- The place at the beginning of the circle is found exactly. -/
theorem denotes_sector_zero (hred : t.greatest = t.r) (hend : t.green = t.blue) :
    t.shares.sector.Denotes 0 ∧ t.place = 0 := by
  have hfit : |binary32.round 0| ≤ binary32.greatest :=
    abs_round_le_greatest 0 (by norm_num) (by norm_num)
  -- The spread is not zero, so the quotient of zero by it is zero.
  rcases near_spread h with ⟨w, hw, hd⟩
  have hw0 : w ≠ 0 := by
    rintro rfl
    linarith [(abs_le.mp hd).1, gap_le h, roundoff_le]
  have hsame : t.shares.green = t.shares.blue := by simp only [shares, hend]
  have hblue : t.shares.blue.Denotes (shareValue t.blue) := denotes_toUnit t.blue_le
  constructor
  · rw [Rgb.sector, if_pos (t.greatest_equal_red.mpr hred), hsame,
      if_neg fun hlt => lt_irrefl _ ((hblue.lt_iff hblue).mp hlt)]
    have hdiff := hblue.sub hblue (by rwa [sub_self])
    rw [sub_self, BinaryFormat.round_zero] at hdiff
    have hquot := hdiff.div hw hw0 (by rwa [zero_div])
    rw [zero_div, BinaryFormat.round_zero] at hquot
    have hsum := hquot.add denotes_ofNat_zero (by rwa [add_zero])
    rwa [add_zero, BinaryFormat.round_zero] at hsum
  · have hgb : t.g = t.b := by rw [g, b, hend]
    rw [place, circlePlace, t.max_shares, if_pos hred, hgb, sub_self, zero_div,
      if_neg (lt_irrefl _),
      add_zero]

theorem near_hue : Near t.shares.hue (t.place / 6) (350 * roundoff) := by
  have hpos := roundoff_pos
  have hsmall := roundoff_le
  rw [Rgb.hue, if_pos (isChromatic_eq h)]
  -- At the beginning of the circle a stray sector could fall below zero and come out near one.
  by_cases hend : t.greatest = t.r ∧ t.green = t.blue
  · rcases denotes_sector_zero h hend.1 hend.2 with ⟨hsector, hplace⟩
    have hquot := hsector.div denotes_six (by norm_num)
      (by rw [zero_div]; exact abs_round_le_greatest 0 (by norm_num) (by norm_num))
    rw [zero_div, BinaryFormat.round_zero] at hquot
    have hmod := hquot.modulo_one le_rfl denotes_one
    rw [Int.fract_zero] at hmod
    rw [hplace, zero_div]
    exact hmod.near (by linarith)
  · rcases place_bounds h hend with ⟨h0, h1⟩
    have hplace : |t.place / 6| ≤ 1 := by
      rw [abs_of_nonneg (by linarith)]
      linarith
    rcases (near_sector h).div 1 (denotes_six.near le_rfl) (Q := 6) (le_abs_self 6) (by norm_num)
      hplace (by norm_num [roundoff]) (ε := 350 * roundoff) (by norm_num [roundoff])
      (by omega)
      with ⟨v, hv, hd⟩
    -- Elsewhere it keeps its distance from both ends, and the remainder by one changes nothing.
    rcases abs_le.mp hd with ⟨hd1, hd2⟩
    have hmod := hv.modulo_one (by linarith) denotes_one
    rw [Int.fract_eq_self.mpr ⟨by linarith, by linarith⟩] at hmod
    exact ⟨v, hmod, hd⟩

theorem place_mem : 0 ≤ t.place ∧ t.place ≤ 6 := by
  by_cases hend : t.greatest = t.r ∧ t.green = t.blue
  · rw [(denotes_sector_zero h hend.1 hend.2).2]
    exact ⟨le_rfl, by norm_num⟩
  · rcases place_bounds h hend with ⟨h0, h1⟩
    exact ⟨by linarith, by linarith⟩

/-- The turns of red and blue are near places two sixths before and after that of green. -/
theorem near_turns :
    Near (t.shares.hue + third) ((t.place + 2) / 6) (360 * roundoff) ∧
      Near (t.shares.hue - third) ((t.place - 2) / 6) (360 * roundoff) := by
  have hsmall := roundoff_le
  have hpos := roundoff_pos
  rcases place_mem h with ⟨h0, h6⟩
  have hsize : |t.place / 6| ≤ 1 := by
    rw [abs_of_nonneg (by linarith)]
    linarith
  have hthird : |(1 : ℚ) / 3| ≤ 1 / 3 := by norm_num
  have hred := (near_hue h).add 1 near_third (ε := 360 * roundoff)
    ((add_le_add_left ((abs_add_le _ _).trans (add_le_add hsize hthird)) _).trans (by linarith))
    (by linarith) (by omega)
  have hblue := (near_hue h).sub 1 near_third (ε := 360 * roundoff)
    ((add_le_add_left ((abs_sub _ _).trans (add_le_add hsize hthird)) _).trans (by linarith))
    (by linarith) (by omega)
  rw [show t.place / 6 + 1 / 3 = (t.place + 2) / 6 by ring] at hred
  rw [show t.place / 6 - 1 / 3 = (t.place - 2) / 6 by ring] at hblue
  exact ⟨hred, hblue⟩

end

/-- A grey colour has neither hue nor saturation. -/
theorem toHsl_of_grey {t : ByteColour} (h : t.bottom = t.top) :
    t.shares.toHsl = ⟨0, 0, t.shares.lightness⟩ := by
  -- Equal samples have equal shares, so the spread is exactly zero.
  have hleast := t.denotes_least
  rw [h] at hleast
  have hspread := t.denotes_greatest.sub hleast
    (by rw [sub_self]; exact abs_round_le_greatest 0 (by norm_num) (by norm_num))
  rw [sub_self, BinaryFormat.round_zero] at hspread
  have hgrey : t.shares.isChromatic = false := by
    rw [Rgb.isChromatic, decide_eq_false_iff_not]
    exact fun hlt => lt_irrefl _ ((denotes_ofNat_zero.lt_iff hspread).mp hlt)
  rw [Rgb.toHsl, Rgb.hue, Rgb.saturation, hgrey]
  rfl

end ByteColour

end Darkroom
