import Darkroom.Mosaic.Extract
import Darkroom.Proofs.Numeric.Given
import Darkroom.Proofs.Samples.Rows
import Mathlib.Data.Nat.ModEq

/-!
# Extraction Rearranges

The four planes of a mosaic hold the readings of its whole tiles, each in one place.

The planes are made of four pieces, one after the other, and each piece goes through the tiles row
by row. So the index of a share splits into the plane and the tile, and the tile's number splits
into its row and column. In the other direction the row and the column of a site tell the tile and
the place in the tile, which is the plane.

## Main definitions

* `MosaicPattern.IsRggbTile`: A tile of red and green over green and blue.
* `Plane.planeReading`: The reading that a share is made of.

## Theorems

* `MosaicPattern.label_of_isRggbTile`: The label of every site under such a tile.
* `Plane.getElem?_quarters`: The readings as the planes hold them.
* `Plane.existsUnique_share_of_site`: Every site of a whole tile has one share.
* `Plane.extract_rearranges`: What an extraction does.
-/

namespace Darkroom

theorem Calibration.effectiveMaximum_cases (c : Calibration) :
    (∃ x, c.effectiveMaximum = .ok x) ∨ c.effectiveMaximum = .error .tooLargeForReal := by
  unfold effectiveMaximum
  split
  · exact c.sensorMaximum.toDouble_cases
  · exact Or.inl ⟨_, rfl⟩

/-- A whole greatest reading is kept when it is positive; else the greatest of 16 bits stands for
    it. -/
theorem Calibration.effectiveMaximum_eq_ok {c : Calibration} {n : ℤ} {x : Double}
    (hn : c.sensorMaximum = .whole n) (h : c.effectiveMaximum = .ok x) :
    x = Binary.ofInt (if 0 < n then n else 65535) := by
  unfold effectiveMaximum Number.isPositive at h
  rw [hn] at h
  simp only [decide_eq_true_eq] at h
  by_cases hpositive : 0 < n
  · rw [if_pos hpositive] at h ⊢
    exact Number.toDouble_whole_eq_ok h
  · rw [if_neg hpositive] at h ⊢
    cases h
    rfl

namespace MosaicPattern

/-- The tile is red and green over green and blue, and nothing else. -/
structure IsRggbTile (p : MosaicPattern) : Prop where
  rows : p.rows = 2
  cols : p.cols = 2
  red : p.label 0 0 = 'R'
  first_green : p.label 0 1 = 'G'
  second_green : p.label 1 0 = 'G'
  blue : p.label 1 1 = 'B'

theorem isRggb_iff (p : MosaicPattern) : p.isRggb = true ↔ p.IsRggbTile := by
  unfold isRggb tileLabels
  have htext (a b c d : Char) : String.ofList [a, b, c, d] = "RGGB" ↔
      a = 'R' ∧ b = 'G' ∧ c = 'G' ∧ d = 'B' := by
    have hlit : "RGGB" = String.ofList ['R', 'G', 'G', 'B'] := rfl
    rw [hlit, String.ofList_inj]
    simp
  simp only [Bool.and_eq_true, decide_eq_true_eq, htext]
  constructor
  · rintro ⟨⟨hrows, hcols⟩, h1, h2, h3, h4⟩
    exact ⟨hrows, hcols, h1, h2, h3, h4⟩
  · rintro ⟨hrows, hcols, h1, h2, h3, h4⟩
    exact ⟨⟨hrows, hcols⟩, h1, h2, h3, h4⟩

theorem tileLabels_of_isRggb {p : MosaicPattern} (h : p.isRggb = true) : p.tileLabels = "RGGB" := by
  unfold isRggb at h
  simp only [Bool.and_eq_true, decide_eq_true_eq] at h
  exact h.2

/-- The label of a site depends on its place in the tile. -/
theorem label_emod (p : MosaicPattern) (row col : ℤ) :
    p.label (row % p.rows) (col % p.cols) = p.label row col := by
  simp only [label, channel, place, Int.emod_emod]

/-- Under a tile of red and green over green and blue, the place in the tile tells the label. -/
theorem label_of_isRggbTile {p : MosaicPattern} (h : p.IsRggbTile) {k : ℕ} (hk : k < 4) (i j : ℕ) :
    ['R', 'G', 'G', 'B'][k]? = some (p.label (2 * i + k / 2 : ℕ) (2 * j + k % 2 : ℕ)) := by
  -- The tile repeats after two rows and two columns, so `i` and `j` drop out.
  rw [← label_emod, h.rows, h.cols]
  have hrow : ((2 * i + k / 2 : ℕ) : ℤ) % (2 : ℕ) = (k / 2 : ℕ) := by omega
  have hcol : ((2 * j + k % 2 : ℕ) : ℤ) % (2 : ℕ) = (k % 2 : ℕ) := by omega
  rw [hrow, hcol]
  match k, hk with
  | 0, _ => exact congrArg some h.red.symm
  | 1, _ => exact congrArg some h.first_green.symm
  | 2, _ => exact congrArg some h.second_green.symm
  | 3, _ => exact congrArg some h.blue.symm

end MosaicPattern

namespace Plane

variable (p : Plane)

/-- The reading that the share of plane `k` in row `i` and column `j` is made of. -/
def planeReading (k i j : ℕ) : p.type.Sample := p.reading (2 * i + k / 2) (2 * j + k % 2)

/-- A tile's number splits into its row and its column. -/
theorem getElem?_quarter (row col : ℕ) {i j : ℕ} (hi : i < p.height / 2) (hj : j < p.width / 2) :
    (p.quarter row col)[i * (p.width / 2) + j]? = some (p.reading (2 * i + row) (2 * j + col)) := by
  have hlt := rowIndex_lt hi hj
  -- The column is less than a row of tiles is long, so division tells the two apart.
  have hdiv : (i * (p.width / 2) + j) / (p.width / 2) = i := by
    rw [Nat.mul_comm, Nat.mul_add_div (by omega), Nat.div_eq_of_lt hj, Nat.add_zero]
  have hmod : (i * (p.width / 2) + j) % (p.width / 2) = j := by
    rw [Nat.mul_comm, Nat.mul_add_mod, Nat.mod_eq_of_lt hj]
  simp [quarter, hlt, hdiv, hmod]

/-- A share's index splits into its plane and its tile. -/
theorem getElem?_quarters {k i j : ℕ} (hk : k < 4) (hi : i < p.height / 2) (hj : j < p.width / 2) :
    p.quarters[(k * (p.height / 2) + i) * (p.width / 2) + j]? = some (p.planeReading k i j) := by
  have hlt := rowIndex_lt hi hj
  have hquarter (row col : ℕ) := p.getElem?_quarter row col hi hj
  unfold quarters planeReading
  -- The products become one tile's number `n` and the number of tiles, and the rest is linear.
  rw [Nat.add_mul, Nat.mul_assoc, Nat.add_assoc]
  simp only [Array.getElem?_append, Array.size_append, size_quarter]
  generalize i * (p.width / 2) + j = n at hlt hquarter ⊢
  generalize p.height / 2 * (p.width / 2) = count at hlt ⊢
  -- The piece that holds the index is the plane's.
  match k, hk with
  | 0, _ =>
    rw [if_pos (by omega), if_pos (by omega), if_pos (by omega), Nat.zero_mul, Nat.zero_add]
    exact hquarter 0 0
  | 1, _ =>
    rw [if_pos (by omega), if_pos (by omega), if_neg (by omega),
      show 1 * count + n - count = n by omega]
    exact hquarter 0 1
  | 2, _ =>
    rw [if_pos (by omega), if_neg (by omega), show 2 * count + n - (count + count) = n by omega]
    exact hquarter 1 0
  | 3, _ =>
    rw [if_neg (by omega), show 3 * count + n - (count + count + count) = n by omega]
    exact hquarter 1 1

/-- The shares of a plane. -/
theorem getElem?_tensorIn (range : ReadingRange) {k i j : ℕ} (hk : k < 4) (hi : i < p.height / 2)
    (hj : j < p.width / 2) :
    (p.tensorIn range).cells[(k * (p.height / 2) + i) * (p.width / 2) + j]? =
      some (range.share (Binary.ofInt (p.planeReading k i j).val)) := by
  simp [tensorIn, p.getElem?_quarters hk hi hj]

theorem share_tensorIn (range : ReadingRange) {k i j : ℕ} (hk : k < 4) (hi : i < p.height / 2)
    (hj : j < p.width / 2) :
    (p.tensorIn range).share k i j = range.share (Binary.ofInt (p.planeReading k i j).val) := by
  have hcell := p.getElem?_tensorIn range hk hi hj
  have hshare : (p.tensorIn range).share k i j =
      ((p.tensorIn range).cells[(k * (p.height / 2) + i) * (p.width / 2) + j]?).getD 0 :=
    Array.getD_eq_getD_getElem?
  rw [hshare, hcell, Option.getD_some]

/-- Every site of a whole tile has one share: the tile tells the row and the column in the plane,
    and the place in the tile tells the plane. -/
theorem existsUnique_share_of_site {y x : ℕ} (hy : y < 2 * (p.height / 2))
    (hx : x < 2 * (p.width / 2)) :
    ∃! s : Fin 4 × Fin (p.height / 2) × Fin (p.width / 2),
      2 * s.2.1.val + s.1.val / 2 = y ∧ 2 * s.2.2.val + s.1.val % 2 = x := by
  refine ⟨(⟨2 * (y % 2) + x % 2, by omega⟩, ⟨y / 2, by omega⟩, ⟨x / 2, by omega⟩), ?_, ?_⟩
  · simp only
    omega
  · -- The halves and the parities of the site are the only solution.
    rintro ⟨k, i, j⟩ ⟨hrow, hcol⟩
    simp only at hrow hcol
    have hk := k.isLt
    refine Prod.ext (Fin.ext ?_) (Prod.ext (Fin.ext ?_) (Fin.ext ?_))
    · simp only
      omega
    · simp only
      omega
    · simp only
      omega

/-- The readings of whole tiles stand on the sensor. -/
theorem getElem?_planeReading {k i j : ℕ} (hk : k < 4) (hi : i < p.height / 2)
    (hj : j < p.width / 2) :
    p.cells[(2 * i + k / 2) * p.width + (2 * j + k % 2)]? = some (p.planeReading k i j) := by
  have hlt : (2 * i + k / 2) * p.width + (2 * j + k % 2) < p.cells.size := by
    rw [p.size_eq]
    exact rowIndex_lt (by omega) (by omega)
  simp [planeReading, reading, hlt]

/-- The range that an extraction normalises to, for a greatest reading and a black level. -/
def extractionRange (calibration : Calibration) (subtractBlack : Bool) (maximum black : Double) :
    ReadingRange :=
  ReadingRange.between (if subtractBlack then black else 0)
    (if calibration.sensorMaximum.isPositive then maximum else 65535)

variable {pattern : MosaicPattern} {calibration : Calibration} {subtractBlack : Bool}

/-- The black level that an extraction subtracts. -/
def subtractedBlack (calibration : Calibration) (subtractBlack : Bool) : Except Failure Double :=
  if subtractBlack then calibration.blackLevel.toDouble else .ok 0

theorem subtractedBlack_cases (calibration : Calibration) (subtractBlack : Bool) :
    (∃ x, subtractedBlack calibration subtractBlack = .ok x) ∨
      subtractedBlack calibration subtractBlack = .error .tooLargeForReal := by
  cases subtractBlack with
  | false => exact Or.inl ⟨_, rfl⟩
  | true => exact calibration.blackLevel.toDouble_cases

/-- A whole black level is subtracted as it is, and none when none is asked for. -/
theorem subtractedBlack_eq_ok {n : ℤ} {x : Double} (hn : calibration.blackLevel = .whole n)
    (h : subtractedBlack calibration subtractBlack = .ok x) :
    x = Binary.ofInt (if subtractBlack then n else 0) := by
  cases subtractBlack with
  | true =>
    rw [subtractedBlack, if_pos rfl, hn] at h
    exact Number.toDouble_whole_eq_ok h
  | false =>
    cases h
    rfl

theorem extract_eq (h : pattern.isRggb = true) :
    p.extract pattern calibration subtractBlack =
      (subtractedBlack calibration subtractBlack).bind fun black =>
        calibration.effectiveMaximum.bind fun maximum =>
          .ok (p.tensorIn (ReadingRange.between black maximum)) := by
  unfold extract
  rw [h]
  cases subtractBlack <;> rfl

/-- An extraction that gives planes has worked out two levels, and nothing else is in the planes. -/
theorem extract_eq_ok {t : Tensor} (h : p.extract pattern calibration subtractBlack = .ok t) :
    pattern.isRggb = true ∧ ∃ black maximum,
      subtractedBlack calibration subtractBlack = .ok black ∧
      calibration.effectiveMaximum = .ok maximum ∧
      t = p.tensorIn (ReadingRange.between black maximum) := by
  by_cases hrggb : pattern.isRggb = true
  · rw [p.extract_eq hrggb] at h
    cases hblack : subtractedBlack calibration subtractBlack with
    | error e =>
      rw [hblack] at h
      cases h
    | ok black =>
      cases hmax : calibration.effectiveMaximum with
      | error e =>
        rw [hblack, hmax] at h
        cases h
      | ok maximum =>
        rw [hblack, hmax] at h
        cases h
        exact ⟨hrggb, black, maximum, rfl, rfl, rfl⟩
  · unfold extract at h
    rw [Bool.eq_false_iff.mpr hrggb] at h
    cases h

theorem extract_of_isRggbTile {maximum black : Double} (h : pattern.IsRggbTile)
    (hmax : calibration.sensorMaximum.toDouble = .ok maximum)
    (hblack : calibration.blackLevel.toDouble = .ok black) :
    p.extract pattern calibration subtractBlack =
      .ok (p.tensorIn (extractionRange calibration subtractBlack maximum black)) := by
  unfold extractionRange
  rw [p.extract_eq (pattern.isRggb_iff.mpr h), subtractedBlack, Calibration.effectiveMaximum, hmax,
    hblack]
  cases subtractBlack <;> cases calibration.sensorMaximum.isPositive <;> rfl

/-- An extraction refuses exactly the patterns that are not red and green over green and blue: with
    such a pattern it can only fail at a number that is too large. -/
theorem extract_refuses_iff :
    (∃ labels, p.extract pattern calibration subtractBlack = .error (.unsupportedPattern labels)) ↔
      ¬pattern.IsRggbTile := by
  rw [← pattern.isRggb_iff]
  by_cases h : pattern.isRggb = true
  · refine iff_of_false ?_ (fun hnot => hnot h)
    rintro ⟨labels, herror⟩
    rw [p.extract_eq h] at herror
    rcases subtractedBlack_cases calibration subtractBlack with ⟨black, hblack⟩ | hblack
    · rcases calibration.effectiveMaximum_cases with ⟨maximum, hmax⟩ | hmax
      · rw [hblack, hmax] at herror
        cases herror
      · rw [hblack, hmax] at herror
        cases herror
    · rw [hblack] at herror
      cases herror
  · refine iff_of_true ⟨pattern.tileLabels, ?_⟩ h
    unfold extract
    rw [Bool.eq_false_iff.mpr h]
    rfl

/-- An extraction rearranges. It refuses every pattern that is not red and green over green and
    blue. Else plane `k` holds, in row `i` and column `j`, the share of the site in row `2 i + k /
    2` and column `2 j + k % 2`; these sites have the labels of the planes, every site of a whole
    tile is used once, and in one row the planes lie one after the other, each row by row. -/
theorem extract_rearranges (p : Plane) (pattern : MosaicPattern) (calibration : Calibration)
    (subtractBlack : Bool) :
    ((∃ labels, p.extract pattern calibration subtractBlack = .error (.unsupportedPattern labels)) ↔
      ¬pattern.IsRggbTile) ∧
    ∀ maximum black, calibration.sensorMaximum.toDouble = .ok maximum →
      calibration.blackLevel.toDouble = .ok black → pattern.IsRggbTile →
      let range := ReadingRange.between (if subtractBlack then black else 0)
        (if calibration.sensorMaximum.isPositive then maximum else 65535)
      ∃ t, p.extract pattern calibration subtractBlack = .ok t ∧
        t.height = p.height / 2 ∧ t.width = p.width / 2 ∧
        (∀ k < 4, ∀ i < p.height / 2, ∀ j < p.width / 2,
          ∃ reading, p.cells[(2 * i + k / 2) * p.width + (2 * j + k % 2)]? = some reading ∧
            t.share k i j = range.share (Binary.ofInt reading.val) ∧
            (t.planar.cells : Array Single)[(k * (p.height / 2) + i) * (p.width / 2) + j]? =
              some (t.share k i j) ∧
            ['R', 'G', 'G', 'B'][k]? =
              some (pattern.label (2 * i + k / 2 : ℕ) (2 * j + k % 2 : ℕ))) ∧
        ∀ y < 2 * (p.height / 2), ∀ x < 2 * (p.width / 2),
          ∃! s : Fin 4 × Fin (p.height / 2) × Fin (p.width / 2),
            2 * s.2.1.val + s.1.val / 2 = y ∧ 2 * s.2.2.val + s.1.val % 2 = x := by
  refine ⟨p.extract_refuses_iff, fun maximum black hmax hblack h => ?_⟩
  refine ⟨_, p.extract_of_isRggbTile h hmax hblack, rfl, rfl, fun k hk i hi j hj => ?_,
    fun y hy x hx => p.existsUnique_share_of_site hy hx⟩
  refine ⟨_, p.getElem?_planeReading hk hi hj, p.share_tensorIn _ hk hi hj, ?_,
    MosaicPattern.label_of_isRggbTile h hk i j⟩
  rw [p.share_tensorIn _ hk hi hj]
  exact p.getElem?_tensorIn _ hk hi hj

/-- A tile of red and green over green and blue, with one channel for each label. -/
def rggbTile : MosaicPattern where
  labels := ['R', 'G', 'B']
  rows := 2
  cols := 2
  tile := #[0, 1, 1, 2]
  rows_pos := by decide
  cols_pos := by decide
  size_eq := rfl
  inside := by decide

/-- A sensor of three rows and two columns; the last row has no partner. -/
def oddPlane : Plane where
  height := 3
  width := 2
  type := .word
  cells := #[10, 20, 30, 40, 50, 60].map WholeType.word.wrap
  size_eq := by simp

theorem extract_rearranges_oddPlane :
    ∃ t, oddPlane.extract rggbTile ⟨1023, 10⟩ true = .ok t ∧ t.height = 1 ∧ t.width = 1 ∧
      t.share 3 0 0 = (ReadingRange.between (Binary.ofInt 10) (Binary.ofInt 1023)).share
        (Binary.ofInt 40) := by
  have htile : rggbTile.IsRggbTile := ⟨rfl, rfl, rfl, rfl, rfl, rfl⟩
  have hmax : (1023 : Number).toDouble = .ok (Binary.ofInt 1023) :=
    Number.toDouble_whole (by decide)
  have hblack : (10 : Number).toDouble = .ok (Binary.ofInt 10) := Number.toDouble_whole (by decide)
  rcases (extract_rearranges oddPlane rggbTile ⟨1023, 10⟩ true).2 _ _ hmax hblack htile with
    ⟨t, ht, hheight, hwidth, hshare, -⟩
  rcases hshare 3 (by decide) 0 (by decide) 0 (by decide) with ⟨reading, hreading, hvalue, -⟩
  have hsite : oddPlane.cells[3]? = some (WholeType.word.wrap 40) := by simp [oddPlane]
  cases hreading.symm.trans hsite
  exact ⟨t, ht, hheight, hwidth, hvalue⟩

end Plane

end Darkroom
