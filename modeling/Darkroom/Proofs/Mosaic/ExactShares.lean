import Darkroom.Proofs.Mosaic.Rearrangement
import Darkroom.Proofs.Tone.ByteShares

/-!
# Exact Shares

Readings of up to 16 bits are normalised with a single rounding.

The levels and the readings are whole numbers of at most 17 bits, and so are their differences. Both
formats hold these without loss, so that of the four operations three are exact: only the division
rounds. The limits zero and one are numbers of the format, so it does not matter that they are
applied after the rounding.

So a share is the number nearest to the exact one. Shares that differ are further apart than a
rounding can bring together, since the range has no more than `2 ^ 17` steps, and nothing is lost.

## Main definitions

* `exactShare`: The place of a reading between two levels.
* `ReadingRange.Spans`: A range goes from one whole level to another.

## Theorems

* `ReadingRange.spans_between`: The range that an extraction works with.
* `ReadingRange.Spans.denotes_share`: A share is the exact one, rounded once.
* `round_exactShare_lt`: Readings that differ within the range have different shares.
* `Plane.extract_spans`: The levels of an extraction.
* `Plane.extract_rounds_once`: What an extraction makes of readings of up to 16 bits.
-/

namespace Darkroom

open Binary

/-- The place of a reading between black and the greatest reading, at most one and at least zero. -/
def exactShare (black maximum reading : ℤ) : ℚ :=
  max 0 (min 1 ((reading - black) / (maximum - black)))

/-- The greatest distance between two levels, or between a level and a reading. -/
def widestRange : ℤ := 131070

theorem exactShare_nonneg (black maximum s : ℤ) : 0 ≤ exactShare black maximum s :=
  le_max_left _ _

theorem exactShare_le_one (black maximum s : ℤ) : exactShare black maximum s ≤ 1 :=
  max_le zero_le_one (min_le_left _ _)

/-- A share is moved by one roundoff at most. -/
theorem abs_round_exactShare_sub_le (black maximum s : ℤ) :
    |binary32.round (exactShare black maximum s) - exactShare black maximum s| ≤ roundoff :=
  (round_unit (exactShare_nonneg black maximum s) (exactShare_le_one black maximum s)).2.2.1

section

variable {black maximum s t : ℤ}

theorem exactShare_of_le (hrange : black < maximum) (h : s ≤ black) :
    exactShare black maximum s = 0 := by
  have hspan : (0 : ℚ) < maximum - black := sub_pos.mpr (by exact_mod_cast hrange)
  have hs : (s : ℚ) - black ≤ 0 := sub_nonpos.mpr (by exact_mod_cast h)
  exact max_eq_left ((min_le_right _ _).trans (div_nonpos_of_nonpos_of_nonneg hs hspan.le))

theorem exactShare_of_ge (hrange : black < maximum) (h : maximum ≤ s) :
    exactShare black maximum s = 1 := by
  have hspan : (0 : ℚ) < maximum - black := sub_pos.mpr (by exact_mod_cast hrange)
  have hs : (maximum : ℚ) - black ≤ s - black := sub_le_sub_right (by exact_mod_cast h) _
  rw [exactShare, min_eq_left ((one_le_div hspan).mpr hs), max_eq_right zero_le_one]

theorem exactShare_of_mem (hrange : black < maximum) (hlow : black ≤ s) (hhigh : s ≤ maximum) :
    exactShare black maximum s = (s - black) / (maximum - black) := by
  have hspan : (0 : ℚ) < maximum - black := sub_pos.mpr (by exact_mod_cast hrange)
  have h0 : (0 : ℚ) ≤ s - black := sub_nonneg.mpr (by exact_mod_cast hlow)
  have h1 : (s : ℚ) - black ≤ maximum - black := sub_le_sub_right (by exact_mod_cast hhigh) _
  rw [exactShare, min_eq_right ((div_le_one hspan).mpr h1), max_eq_right (div_nonneg h0 hspan.le)]

/-- One step of the range is more than two roundings. -/
theorem round_exactShare_lt (hwide : maximum - black ≤ widestRange) (hlow : black ≤ s) (hst : s < t)
    (hhigh : t ≤ maximum) :
    binary32.round (exactShare black maximum s) < binary32.round (exactShare black maximum t) := by
  have hrange : black < maximum := by omega
  have hspan : (0 : ℚ) < maximum - black := sub_pos.mpr (by exact_mod_cast hrange)
  have hstep : exactShare black maximum s + 1 / 131070 ≤ exactShare black maximum t := by
    rw [exactShare_of_mem hrange hlow (by omega), exactShare_of_mem hrange (by omega) hhigh]
    have hwide' : (maximum : ℚ) - black ≤ 131070 := by exact_mod_cast hwide
    have hone : (s : ℚ) + 1 ≤ t := by exact_mod_cast hst
    calc ((s : ℚ) - black) / (maximum - black) + 1 / 131070
        ≤ (s - black) / (maximum - black) + 1 / (maximum - black) := by
          gcongr
      _ = (s + 1 - black) / (maximum - black) := by ring
      _ ≤ (t - black) / (maximum - black) := by gcongr
  have hs := (abs_le.mp (abs_round_exactShare_sub_le black maximum s)).2
  have ht := (abs_le.mp (abs_round_exactShare_sub_le black maximum t)).1
  linarith [roundoff_le]

theorem round_exactShare_of_le (hrange : black < maximum) (h : s ≤ black) :
    binary32.round (exactShare black maximum s) = 0 := by
  rw [exactShare_of_le hrange h, BinaryFormat.round_zero]

theorem round_exactShare_of_ge (hrange : black < maximum) (h : maximum ≤ s) :
    binary32.round (exactShare black maximum s) = 1 := by
  rw [exactShare_of_ge hrange h, BinaryFormat.round_of_representable denotes_one.representable]

theorem round_exactShare_eq_zero_iff (hrange : black < maximum)
    (hwide : maximum - black ≤ widestRange) :
    binary32.round (exactShare black maximum s) = 0 ↔ s ≤ black := by
  refine ⟨fun h => ?_, round_exactShare_of_le hrange⟩
  by_contra hs
  rcases le_total s maximum with hle | hge
  · have hlt := round_exactShare_lt hwide le_rfl (by omega) hle
    rw [h, round_exactShare_of_le hrange le_rfl] at hlt
    exact lt_irrefl _ hlt
  · rw [round_exactShare_of_ge hrange hge] at h
    exact one_ne_zero h

theorem round_exactShare_eq_one_iff (hrange : black < maximum)
    (hwide : maximum - black ≤ widestRange) :
    binary32.round (exactShare black maximum s) = 1 ↔ maximum ≤ s := by
  refine ⟨fun h => ?_, round_exactShare_of_ge hrange⟩
  by_contra hs
  rcases le_total black s with hge | hle
  · have hlt := round_exactShare_lt hwide hge (by omega) le_rfl
    rw [h, round_exactShare_of_ge hrange le_rfl] at hlt
    exact lt_irrefl _ hlt
  · rw [round_exactShare_of_le hrange hle] at h
    exact zero_ne_one h

end

namespace ReadingRange

/-- A range begins at one whole level and ends at another one. -/
structure Spans (r : ReadingRange) (black maximum : ℤ) : Prop where
  start : r.black.Denotes black
  length : r.span.Denotes (maximum - black)

/-- Both formats hold whole numbers up to the widest range. -/
theorem denotes_double {n : ℤ} (h : |n| ≤ widestRange) : (ofInt n : Double).Denotes n :=
  denotes_ofInt_of_lt (h.trans_lt (by decide)) (by decide) (by decide)

theorem denotes_single {n : ℤ} (h : |n| ≤ widestRange) : (ofInt n : Single).Denotes n :=
  denotes_ofInt_of_lt (h.trans_lt (by decide)) (by decide) (by decide)

variable {black maximum : ℤ}

/-- The range between two levels starts at black, or at zero when black is not the lower one. -/
theorem spans_between (hblack : |black| ≤ 65535) (hpositive : 0 < maximum)
    (hmax : maximum ≤ 65535) :
    (between (ofInt black) (ofInt maximum)).Spans (if black < maximum then black else 0)
      maximum := by
  rcases abs_le.mp hblack with ⟨hlow, hhigh⟩
  have hb := denotes_double (hblack.trans (by decide))
  have hm := denotes_double (n := maximum) (abs_le.mpr (by unfold widestRange; omega))
  have hd := denotes_double (n := maximum - black) (abs_le.mpr (by unfold widestRange; omega))
  rw [Int.cast_sub] at hd
  have hspan := hm.sub_exact hb hd
  unfold between
  simp only [hspan.le_iff denotes_ofNat_zero, sub_nonpos, Int.cast_le]
  by_cases hlt : black < maximum
  · rw [if_neg (by omega), if_pos hlt]
    exact ⟨hb, hspan⟩
  · rw [if_pos (by omega), if_neg hlt]
    exact ⟨by rw [Int.cast_zero]; exact denotes_ofNat_zero, by rwa [Int.cast_zero, sub_zero]⟩

/-- A share is the exact one, rounded once: only the division is not exact. -/
theorem Spans.denotes_share {r : ReadingRange} {s : ℤ} (h : r.Spans black maximum)
    (hrange : black < maximum) (hwide : maximum - black ≤ widestRange) (hblack : |black| ≤ 65535)
    (hs0 : 0 ≤ s) (hs : s ≤ 65535) :
    (r.share (ofInt s)).Denotes (binary32.round (exactShare black maximum s)) := by
  rcases abs_le.mp hblack with ⟨hlow, hhigh⟩
  have hspan : (0 : ℚ) < maximum - black := sub_pos.mpr (by exact_mod_cast hrange)
  -- The levels are taken over without loss, and so is the distance of the reading from black.
  have hstart := h.start.convert_exact (denotes_single (hblack.trans (by decide)))
  have hwhole := denotes_single (n := maximum - black)
    (abs_le.mpr (by unfold widestRange at hwide ⊢; omega))
  rw [Int.cast_sub] at hwhole
  have hlength := h.length.convert_exact hwhole
  have hreading := denotes_single (n := s) (abs_le.mpr (by unfold widestRange; omega))
  have hdistance := denotes_single (n := s - black) (abs_le.mpr (by unfold widestRange; omega))
  rw [Int.cast_sub] at hdistance
  have hmoved := hreading.sub_exact hstart hdistance
  -- The quotient is no larger than the dividend, since the range has at least one step.
  have hsize : |((s : ℚ) - black) / (maximum - black)| ≤ 2 ^ 17 := by
    have hone : (1 : ℚ) ≤ maximum - black := by
      exact_mod_cast (show 1 ≤ maximum - black by omega)
    have hdividend : |(s : ℚ) - black| ≤ 2 ^ 17 := by
      exact_mod_cast abs_le.mpr (show -2 ^ 17 ≤ s - black ∧ s - black ≤ 2 ^ 17 by omega)
    rw [abs_div, abs_of_pos hspan]
    exact (div_le_self (abs_nonneg _) hone).trans hdividend
  have hquotient := hmoved.div hlength hspan.ne' (abs_round_le_greatest 17 (by norm_num) hsize)
  have hshare := hquotient.clamp denotes_ofNat_zero denotes_one zero_le_one
  -- Rounding keeps the order and the two limits, so it may as well come last.
  have hmono : Monotone binary32.round := fun _ _ => BinaryFormat.round_mono
  rw [exactShare, hmono.map_max, hmono.map_min, BinaryFormat.round_zero,
    BinaryFormat.round_of_representable denotes_one.representable]
  exact hshare

end ReadingRange

namespace Plane

variable {pattern : MosaicPattern} {maximum black : ℤ}

/-- The level that readings are divided by. -/
def upperLevel (maximum : ℤ) : ℤ := if 0 < maximum then maximum else 65535

/-- The level that is subtracted from readings: black, when this is asked for and below the upper
    level. -/
def lowerLevel (subtractBlack : Bool) (maximum black : ℤ) : ℤ :=
  if subtractBlack = true ∧ black < upperLevel maximum then black else 0

theorem upperLevel_bounds (hmax : maximum ≤ 65535) :
    0 < upperLevel maximum ∧ upperLevel maximum ≤ 65535 := by
  unfold upperLevel
  split_ifs <;> omega

theorem lowerLevel_bounds (subtractBlack : Bool) (hmax : maximum ≤ 65535)
    (hblack : |black| ≤ 65535) :
    |lowerLevel subtractBlack maximum black| ≤ 65535 ∧
      lowerLevel subtractBlack maximum black < upperLevel maximum := by
  have hupper := upperLevel_bounds hmax
  unfold lowerLevel
  split_ifs with h
  · exact ⟨hblack, h.2⟩
  · exact ⟨by decide, hupper.1⟩

/-- A byte and a word lie within 16 bits. -/
theorem bounds_of_holds {t : WholeType} (ht : t = .byte ∨ t = .word) {n : ℤ} (hn : t.Holds n) :
    0 ≤ n ∧ n ≤ 65535 := by
  rcases ht with rfl | rfl
  · have hhigh : n < 0 + 256 := hn.2
    exact ⟨hn.1, by omega⟩
  · have hhigh : n < 0 + 65536 := hn.2
    exact ⟨hn.1, by omega⟩

/-- With whole levels an extraction works in a range from one of them to the other. -/
theorem extract_spans (p : Plane) (subtractBlack : Bool) (hpattern : pattern.IsRggbTile)
    (hmax : maximum ≤ 65535) (hblack : |black| ≤ 65535) :
    ∃ range : ReadingRange, p.extract pattern ⟨.whole maximum, .whole black⟩ subtractBlack =
        .ok (p.tensorIn range) ∧
      range.Spans (lowerLevel subtractBlack maximum black) (upperLevel maximum) := by
  have hupper := upperLevel_bounds hmax
  have htop : Calibration.effectiveMaximum ⟨.whole maximum, .whole black⟩ =
      .ok (ofInt (upperLevel maximum)) := by
    unfold Calibration.effectiveMaximum Number.isPositive upperLevel
    simp only [decide_eq_true_eq]
    split_ifs with hpositive
    · exact Number.toDouble_whole (ReadingRange.denotes_double
        (abs_le.mpr (by unfold widestRange; omega))).1
    · rfl
  cases subtractBlack with
  | false =>
    refine ⟨_, by rw [p.extract_eq (pattern.isRggb_iff.mpr hpattern), htop]; rfl, ?_⟩
    have h := ReadingRange.spans_between (abs_zero.trans_le (by decide)) hupper.1 hupper.2
    rwa [ite_self] at h
  | true =>
    have hbottom : subtractedBlack ⟨.whole maximum, .whole black⟩ true = .ok (ofInt black) :=
      Number.toDouble_whole (ReadingRange.denotes_double (hblack.trans (by decide))).1
    refine ⟨_, by rw [p.extract_eq (pattern.isRggb_iff.mpr hpattern), htop, hbottom]; rfl, ?_⟩
    have h := ReadingRange.spans_between hblack hupper.1 hupper.2
    unfold lowerLevel
    simpa only [true_and] using h

/-- An extraction of bytes or words rounds once. With the greatest reading `M`, 65535 when the
    camera does not know it, and the black level `b`, zero when it is not subtracted or not below
    `M`, the share of a reading `s` is the number nearest to `(s - b) / (M - b)`, moved between zero
    and one. So it is zero up to `b` only and one from `M` on only, and between them it grows with
    every step. -/
theorem extract_rounds_once (p : Plane) (htype : p.type = .byte ∨ p.type = .word)
    (pattern : MosaicPattern) (hpattern : pattern.IsRggbTile) (maximum black : ℤ)
    (hmax : maximum ≤ 65535) (hblack : |black| ≤ 65535) (subtractBlack : Bool) :
    let M : ℤ := if 0 < maximum then maximum else 65535
    let b : ℤ := if subtractBlack = true ∧ black < M then black else 0
    let shareOf (s : ℤ) : ℚ := max 0 (min 1 ((s - b) / (M - b)))
    (∃ t, p.extract pattern ⟨.whole maximum, .whole black⟩ subtractBlack = .ok t ∧
      t.height = p.height / 2 ∧ t.width = p.width / 2 ∧
      ∀ k < 4, ∀ i < p.height / 2, ∀ j < p.width / 2,
        ∃ s, p.cells[(2 * i + k / 2) * p.width + (2 * j + k % 2)]? = some s ∧
          (t.share k i j).Denotes (binary32.round (shareOf s.val)) ∧
          ∀ (y : Single) (q : ℚ), y.Denotes q →
            |binary32.round (shareOf s.val) - shareOf s.val| ≤ |q - shareOf s.val|) ∧
    (∀ s, binary32.round (shareOf s) = 0 ↔ s ≤ b) ∧ (∀ s, binary32.round (shareOf s) = 1 ↔ M ≤ s) ∧
    ∀ s t, b ≤ s → s < t → t ≤ M → binary32.round (shareOf s) < binary32.round (shareOf t) := by
  have hupper := upperLevel_bounds hmax
  rcases lowerLevel_bounds subtractBlack hmax hblack with ⟨hlower, hrange⟩
  have hwide : upperLevel maximum - lowerLevel subtractBlack maximum black ≤ widestRange := by
    have := abs_le.mp hlower
    unfold widestRange
    omega
  refine ⟨?_, fun s => round_exactShare_eq_zero_iff hrange hwide,
    fun s => round_exactShare_eq_one_iff hrange hwide,
    fun s t hs hst ht => round_exactShare_lt hwide hs hst ht⟩
  rcases p.extract_spans subtractBlack hpattern hmax hblack with
    ⟨range, hextract, hspans⟩
  refine ⟨_, hextract, rfl, rfl, fun k hk i hi j hj => ?_⟩
  rcases bounds_of_holds htype (p.planeReading k i j).property with ⟨hs0, hs⟩
  refine ⟨_, p.getElem?_planeReading hk hi hj, ?_,
    fun y q hq => BinaryFormat.abs_round_sub_le_abs_sub hq.representable⟩
  rw [p.share_tensorIn range hk hi hj]
  exact hspans.denotes_share hrange hwide hlower hs0 hs

/-- The black level lies below zero here. -/
theorem extract_rounds_once_oddPlane :
    ∃ t, oddPlane.extract rggbTile ⟨.whole 1023, .whole (-10)⟩ true = .ok t ∧
      (t.share 3 0 0).Denotes (binary32.round (50 / 1033)) := by
  rcases extract_rounds_once oddPlane (Or.inr rfl) rggbTile ⟨rfl, rfl, rfl, rfl, rfl, rfl⟩ 1023
    (-10) (by decide) (by decide) true with ⟨⟨t, ht, -, -, hshare⟩, -⟩
  rcases hshare 3 (by decide) 0 (by decide) 0 (by decide) with ⟨s, hs, hvalue, -⟩
  have hsite : oddPlane.cells[3]? = some (WholeType.word.wrap 40) := by simp [oddPlane]
  cases hs.symm.trans hsite
  refine ⟨t, ht, ?_⟩
  have h40 : (WholeType.word.wrap 40).val = 40 := by decide
  rw [h40] at hvalue
  norm_num at hvalue
  exact hvalue

end Plane

end Darkroom
