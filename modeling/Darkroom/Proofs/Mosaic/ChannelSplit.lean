import Darkroom.Mosaic.Channels
import Darkroom.Proofs.Files.Steps
import Darkroom.Proofs.Samples.Rows
import Mathlib.Algebra.BigOperators.Group.Finset.Piecewise
import Mathlib.Algebra.Order.Ring.Int

/-!
# Channels Partition a Mosaic

The channel of a site is found in two ways: by the remainders of its row and column, and in a map
that is laid out with whole tiles and cut to size. Both say the same for every tile and every size
of a sensor, so taking a mosaic apart puts each reading into one channel.

Laying out works the same way for the tiles of a row and for the rows: a list is repeated until it
is long enough, and what it holds at an index depends on the remainder. So one lemma about lists
serves both directions. The channels are written as numbers of 64 bits into the map; the pattern of
a list comes from such numbers, and a pattern of labels has few channels, so all of them are kept.

## Main definitions

* `MosaicPattern.IsAccepted`: The patterns that can be made.

## Theorems

* `getElem?_repeatTo`: A repeated list by remainders.
* `MosaicPattern.channel_periodic`: Whole tiles further on a site sees the same.
* `MosaicPattern.getElem?_channelMap`: The map agrees with the remainders.
* `MosaicPattern.channelMapOf_eq`: The map as an array.
* `Plane.splitChannels_partitions`: A mosaic taken apart.
-/

namespace Darkroom

/-! ### Repeated lists -/

section

variable {α : Type} {items : List α} {length : ℕ}

theorem lt_piecesToCover {i piece : ℕ} (hpiece : 0 < piece) (hi : i < length) :
    i / piece < piecesToCover length piece := by
  rw [piecesToCover, Nat.div_lt_iff_lt_mul hpiece]
  have hsplit := Nat.div_add_mod (length + piece - 1) piece
  have hrest := Nat.mod_lt (length + piece - 1) hpiece
  rw [Nat.mul_comm]
  omega

/-- A repeated list holds at every index what the list holds at the remainder. -/
theorem getElem?_repeatTo (hitems : 0 < items.length) {i : ℕ} (hi : i < length) :
    (repeatTo length items)[i]? = items[i % items.length]? := by
  have hrows : ∀ row ∈ List.replicate (piecesToCover length items.length) items,
      row.length = items.length := fun row hrow => by rw [List.eq_of_mem_replicate hrow]
  have hsplit : i / items.length * items.length + i % items.length = i := Nat.div_add_mod' _ _
  rw [repeatTo, List.getElem?_take_of_lt hi]
  nth_rewrite 1 [← hsplit]
  rw [getElem?_flatten_of_rows hrows _ (Nat.mod_lt i hitems),
    List.getElem?_replicate_of_lt (lt_piecesToCover hitems hi)]
  rfl

theorem length_repeatTo (hitems : 0 < items.length) : (repeatTo length items).length = length := by
  refine le_antisymm (by rw [repeatTo]; exact List.length_take_le _ _) ?_
  by_contra hshort
  -- Up to its length the repeated list holds something at every index.
  have hnone := getElem?_repeatTo hitems (not_le.mp hshort)
  rw [List.getElem?_eq_none le_rfl, eq_comm, List.getElem?_eq_none_iff] at hnone
  exact absurd (Nat.mod_lt _ hitems) (not_lt.mpr hnone)

theorem mem_of_mem_repeatTo {a : α} (h : a ∈ repeatTo length items) : a ∈ items := by
  rcases List.mem_flatten.mp (List.mem_of_mem_take h) with ⟨row, hrow, ha⟩
  rwa [List.eq_of_mem_replicate hrow] at ha

end

namespace Samples

/-- The array of whole numbers of a nested list has 64 bits for each. -/
theorem exists_of_wholesOfValue {value : Value} {a : Samples}
    (h : wholesOfValue value = .ok a) :
    ∃ shape cells hsize, a = ⟨.whole longType, shape, cells, hsize⟩ := by
  unfold wholesOfValue ofValueBy at h
  simp only [ok_bind_iff] at h
  rcases h with ⟨shape, -, cells, -, h⟩
  unfold ofCells? at h
  by_cases hsize : cells.size = volume shape
  · rw [dif_pos hsize] at h
    cases h
    exact ⟨shape, cells, hsize, rfl⟩
  · rw [dif_neg hsize] at h
    cases h

end Samples

namespace MosaicPattern

/-- The patterns that can be made: of a nested list, or of four labels. -/
inductive IsAccepted : MosaicPattern → Prop
  | ofValue {labels : String} {pattern : Value} {m : MosaicPattern}
      (h : MosaicPattern.ofValue labels pattern = .ok m) : IsAccepted m
  | ofLabels {text : String} {m : MosaicPattern} (h : MosaicPattern.ofLabels text = .ok m) :
      IsAccepted m

variable (m : MosaicPattern)

/-- The tile tells the channel by the remainders of the row and the column. -/
theorem getElem?_tile (row col : ℤ) : m.tile[m.place row col]? = some (m.channel row col) :=
  Array.getElem?_eq_getElem (m.place_lt row col)

/-- Whole tiles further on, a site sees the same. -/
theorem channel_periodic (row col i j : ℤ) :
    m.channel (row + i * m.rows) (col + j * m.cols) = m.channel row col := by
  simp only [channel, place, Int.add_mul_emod_self_right]

theorem place_of_lt {row col : ℕ} (hrow : row < m.rows) (hcol : col < m.cols) :
    m.place row col = row * m.cols + col := by
  rw [place, Int.emod_eq_of_lt (by omega) (by omega), Int.emod_eq_of_lt (by omega) (by omega),
    Int.toNat_natCast, Int.toNat_natCast]

theorem channel_mod (row col : ℕ) :
    m.channel (row % m.rows : ℕ) (col % m.cols : ℕ) = m.channel row col := by
  simp only [channel, place, Int.natCast_emod, Int.emod_emod]

theorem getElem?_tileRow {row col : ℕ} (hrow : row < m.rows) (hcol : col < m.cols) :
    (m.tileRow row)[col]? = some (m.channel row col) := by
  rw [tileRow, List.getElem?_take_of_lt hcol, List.getElem?_drop, ← m.getElem?_tile,
    m.place_of_lt hrow hcol, Array.getElem?_toList]

theorem length_tileRow {row : ℕ} (hrow : row < m.rows) : (m.tileRow row).length = m.cols := by
  have hrows := Nat.mul_le_mul_right m.cols hrow
  rw [Nat.succ_mul] at hrows
  rw [tileRow, List.length_take, List.length_drop, Array.length_toList, m.size_eq]
  omega

/-! ### The map -/

section

variable {height width : ℕ}

theorem length_of_mem_channelMap {row : List ℕ} (h : row ∈ m.channelMap height width) :
    row.length = width := by
  rcases List.mem_map.mp (mem_of_mem_repeatTo h) with ⟨r, hr, rfl⟩
  have hlength := m.length_tileRow (List.mem_range.mp hr)
  exact length_repeatTo (hlength.symm ▸ m.cols_pos)

theorem length_channelMap : (m.channelMap height width).length = height :=
  length_repeatTo (by rw [List.length_map, List.length_range]; exact m.rows_pos)

/-- The map agrees with the remainders. -/
theorem getElem?_channelMap {y x : ℕ} (hy : y < height) (hx : x < width) :
    (m.channelMap height width).flatten[y * width + x]? = some (m.channel y x) := by
  have hrow := Nat.mod_lt y m.rows_pos
  have hlength := m.length_tileRow hrow
  rw [getElem?_flatten_of_rows (fun _ => m.length_of_mem_channelMap) y hx, channelMap,
    getElem?_repeatTo (by rw [List.length_map, List.length_range]; exact m.rows_pos) hy,
    List.length_map, List.length_range, List.getElem?_map, List.getElem?_range hrow]
  show (repeatTo width (m.tileRow (y % m.rows)))[x]? = _
  rw [getElem?_repeatTo (hlength.symm ▸ m.cols_pos) hx, hlength,
    m.getElem?_tileRow hrow (Nat.mod_lt x m.cols_pos), m.channel_mod]

end

/-! ### Accepted patterns -/

/-- The tile of an accepted table is the table. -/
theorem ofTile_eq_ok {labels : List Char} {rows cols : ℕ} {tile : List ℤ} {m : MosaicPattern}
    (h : ofTile labels rows cols tile = .ok m) :
    m.labels = labels ∧ m.tile = (tile.map Int.toNat).toArray := by
  unfold ofTile at h
  simp only at h
  split_ifs at h
  cases h
  exact ⟨rfl, rfl⟩

/-- The channels of the pattern of a nested list are numbers of 64 bits. -/
theorem holds_of_ofValue {labels : String} {pattern : Value} {m : MosaicPattern}
    (h : ofValue labels pattern = .ok m) : ∀ k ∈ m.tile, longType.Holds k := by
  rcases ok_bind_iff.mp h with ⟨a, ha, h⟩
  rcases Samples.exists_of_wholesOfValue ha with ⟨shape, cells, hsize, rfl⟩
  unfold ofSamples at h
  split at h
  · intro k hk
    rw [(ofTile_eq_ok h).2, List.mem_toArray, List.map_map] at hk
    rcases List.mem_map.mp hk with ⟨n, -, rfl⟩
    have hlow : -0x8000000000000000 ≤ n.val := n.property.1
    have hhigh : n.val < -0x8000000000000000 + 0x10000000000000000 := n.property.2
    show -0x8000000000000000 ≤ (n.val.toNat : ℤ) ∧
      (n.val.toNat : ℤ) < -0x8000000000000000 + 0x10000000000000000
    omega
  · cases h

theorem length_addLabel_le (seen : List Char × List ℕ) (label : Char) :
    (addLabel seen label).1.length ≤ seen.1.length + 1 := by
  rw [addLabel]
  split_ifs <;> simp

/-- Each label adds one channel at most. -/
theorem length_foldl_addLabel_le (letters : List Char) (seen : List Char × List ℕ) :
    (letters.foldl addLabel seen).1.length ≤ seen.1.length + letters.length := by
  induction letters generalizing seen with
  | nil => simp
  | cons letter letters ih =>
    have hone := length_addLabel_le seen letter
    have hrest := ih (addLabel seen letter)
    rw [List.foldl_cons, List.length_cons]
    omega

/-- The pattern of four labels has four channels at most. -/
theorem length_labels_of_ofLabels {text : String} {m : MosaicPattern}
    (h : ofLabels text = .ok m) : m.labels.length ≤ 4 := by
  unfold ofLabels at h
  simp only at h
  split_ifs at h with hfour
  rw [(ofTile_eq_ok h).1]
  have hle := length_foldl_addLabel_le (upperCase text).toList ([], [])
  rw [not_not.mp hfour] at hle
  simpa using hle

/-- The channels of an accepted pattern are numbers of 64 bits. -/
theorem IsAccepted.holds_channel {m : MosaicPattern} (h : m.IsAccepted) (row col : ℤ) :
    longType.Holds (m.channel row col) := by
  cases h with
  | ofValue h => exact holds_of_ofValue h _ (Array.mem_of_getElem? (m.getElem?_tile row col))
  | ofLabels h =>
    have hlt := m.channel_lt row col
    have hle := length_labels_of_ofLabels h
    show -0x8000000000000000 ≤ (m.channel row col : ℤ) ∧
      (m.channel row col : ℤ) < -0x8000000000000000 + 0x10000000000000000
    omega

theorem length_flatten_channelMap (height width : ℕ) :
    (m.channelMap height width).flatten.length = height * width := by
  rw [length_flatten_of_rows fun _ => m.length_of_mem_channelMap, m.length_channelMap]

/-- The channels of a sensor, row by row. -/
def channelSamples (height width : ℕ) : Array longType.Sample :=
  (m.channelMap height width).flatten.toArray.map fun k : ℕ => longType.wrap k

theorem size_channelSamples (height width : ℕ) :
    (m.channelSamples height width).size = volume [height, width] := by
  rw [channelSamples, Array.size_map, List.size_toArray, m.length_flatten_channelMap]
  simp [volume]

/-- The map of a sensor is made of its channels, whatever its size. -/
theorem channelMapOf_eq (height width : ℕ) :
    m.channelMapOf height width = .ok ⟨.whole longType, [height, width],
      m.channelSamples height width, m.size_channelSamples height width⟩ := by
  have hrows := m.rows_pos
  have hcols := m.cols_pos
  rw [channelMapOf, if_neg (by omega), if_neg (by omega)]
  exact Samples.match_ofCells? (m.size_channelSamples height width) _

theorem IsAccepted.getElem?_channelSamples {m : MosaicPattern} (h : m.IsAccepted)
    {height width y x : ℕ} (hy : y < height) (hx : x < width) :
    ∃ v, (m.channelSamples height width)[y * width + x]? = some v ∧ v.val = m.channel y x := by
  refine ⟨⟨m.channel y x, h.holds_channel y x⟩, ?_, rfl⟩
  rw [channelSamples, Array.getElem?_map, List.getElem?_toArray, m.getElem?_channelMap hy hx,
    Option.map_some, WholeType.wrap_eq (h.holds_channel y x)]

end MosaicPattern

namespace Plane

variable (p : Plane) (m : MosaicPattern)

theorem getElem?_cells {y x : ℕ} (hy : y < p.height) (hx : x < p.width) :
    p.cells[y * p.width + x]? = some (p.reading y x) := by
  have hlt : y * p.width + x < p.cells.size := by
    rw [p.size_eq]
    exact rowIndex_lt hy hx
  simp [reading, hlt]

/-- What a channel has at a site: the reading, if the site is its own, and zero else. -/
def channelReading (k y x : ℕ) : p.type.Sample :=
  if m.channel y x = k then p.reading y x else p.type.wrap 0

theorem val_channelReading (k y x : ℕ) :
    (p.channelReading m k y x).val = if k = m.channel y x then (p.reading y x).val else 0 := by
  rw [channelReading]
  by_cases h : m.channel y x = k
  · rw [if_pos h, if_pos h.symm]
  · rw [if_neg h, if_neg (Ne.symm h), WholeType.wrap_zero_val]

/-- The readings of all channels, one channel after the other. -/
def splitCells : Array p.type.Sample :=
  ((List.range m.labels.length).flatMap
    (p.channelCells (m.channelMap p.height p.width).flatten)).toArray

theorem length_channelCells (k : ℕ) :
    (p.channelCells (m.channelMap p.height p.width).flatten k).length = p.height * p.width := by
  rw [channelCells, List.length_zipWith, m.length_flatten_channelMap, Array.length_toList,
    p.size_eq, min_self]

theorem length_of_mem_channelCells {row : List p.type.Sample}
    (h : row ∈ (List.range m.labels.length).map
      (p.channelCells (m.channelMap p.height p.width).flatten)) :
    row.length = p.height * p.width := by
  rcases List.mem_map.mp h with ⟨k, -, rfl⟩
  exact p.length_channelCells m k

theorem size_splitCells :
    (p.splitCells m).size = volume [m.labels.length, p.height, p.width] := by
  rw [splitCells, List.size_toArray, List.flatMap_def,
    length_flatten_of_rows fun _ => p.length_of_mem_channelCells m, List.length_map,
    List.length_range]
  simp [volume]

/-- A mosaic is taken apart whatever its size. -/
theorem splitChannels_eq :
    p.splitChannels m = .ok ⟨.whole p.type, [m.labels.length, p.height, p.width],
      p.splitCells m, p.size_splitCells m⟩ :=
  Samples.match_ofCells? (p.size_splitCells m) _

/-- A channel has the readings of its own sites, and zero at the others. -/
theorem getElem?_splitCells {k y x : ℕ} (hk : k < m.labels.length) (hy : y < p.height)
    (hx : x < p.width) :
    (p.splitCells m)[(k * p.height + y) * p.width + x]? = some (p.channelReading m k y x) := by
  have hindex : (k * p.height + y) * p.width + x
      = k * (p.height * p.width) + (y * p.width + x) := by
    rw [Nat.add_mul, Nat.mul_assoc, Nat.add_assoc]
  rw [splitCells, List.getElem?_toArray, List.flatMap_def, hindex,
    getElem?_flatten_of_rows (fun _ => p.length_of_mem_channelCells m) k (rowIndex_lt hy hx),
    List.getElem?_map, List.getElem?_range hk]
  show (p.channelCells _ k)[y * p.width + x]? = _
  rw [channelCells, List.getElem?_zipWith, m.getElem?_channelMap hy hx, Array.getElem?_toList,
    p.getElem?_cells hy hx]
  rfl

/-- Every pattern that can be made has a channel of its labels at any site, near or far, on either
    side of the sensor's corner; it is the same whole tiles further on, and the tile's own entry
    on the tile. The map of a sensor of any size holds these channels. And a sensor of any size is
    taken apart into as many channels as there are labels: each has the readings of its sites and
    zero elsewhere, and all of them add up to the readings. -/
theorem splitChannels_partitions (hm : m.IsAccepted) :
    (∀ row col : ℤ, m.channel row col < m.labels.length ∧
      ∀ i j : ℤ, m.channel (row + i * m.rows) (col + j * m.cols) = m.channel row col) ∧
    (∀ row col : ℕ, row < m.rows → col < m.cols →
      m.tile[row * m.cols + col]? = some (m.channel row col)) ∧
    (∀ height width : ℕ, ∃ cells hsize,
      m.channelMapOf height width = .ok ⟨.whole longType, [height, width], cells, hsize⟩ ∧
      ∀ y x, y < height → x < width →
        ∃ v, cells[y * width + x]? = some v ∧ v.val = m.channel y x) ∧
    ∃ cells hsize,
      p.splitChannels m =
        .ok ⟨.whole p.type, [m.labels.length, p.height, p.width], cells, hsize⟩ ∧
      ∀ y x, y < p.height → x < p.width →
        (∀ k < m.labels.length, ∃ v, cells[(k * p.height + y) * p.width + x]? = some v ∧
          v.val = if k = m.channel y x then (p.reading y x).val else 0) ∧
        ∑ k ∈ Finset.range m.labels.length,
          (cells[(k * p.height + y) * p.width + x]?.getD default).val = (p.reading y x).val := by
  refine ⟨fun row col => ⟨m.channel_lt row col, m.channel_periodic row col⟩, ?_, ?_, ?_⟩
  · intro row col hrow hcol
    rw [← m.place_of_lt hrow hcol]
    exact m.getElem?_tile row col
  · intro height width
    exact ⟨_, _, m.channelMapOf_eq height width, fun y x => hm.getElem?_channelSamples⟩
  refine ⟨_, _, p.splitChannels_eq m, fun y x hy hx => ⟨fun k hk => ?_, ?_⟩⟩
  · exact ⟨_, p.getElem?_splitCells m hk hy hx, p.val_channelReading m k y x⟩
  · -- Only one channel adds something: the site's own, which is one of the labels'.
    have hsum : ∀ k ∈ Finset.range m.labels.length,
        ((p.splitCells m)[(k * p.height + y) * p.width + x]?.getD default).val =
          if k = m.channel y x then (p.reading y x).val else 0 := fun k hk => by
      rw [p.getElem?_splitCells m (Finset.mem_range.mp hk) hy hx, Option.getD_some,
        p.val_channelReading]
    refine (Finset.sum_congr rfl hsum).trans ?_
    rw [Finset.sum_ite_eq', if_pos (Finset.mem_range.mpr (m.channel_lt y x))]

/-- Red and green over green and blue, each green with a channel of its own. -/
def bayerTile : MosaicPattern where
  labels := ['R', 'G', 'G', 'B']
  rows := 2
  cols := 2
  tile := #[0, 1, 2, 3]
  rows_pos := Nat.zero_lt_two
  cols_pos := Nat.zero_lt_two
  size_eq := rfl
  inside := by decide

/-- A sensor of one row and three columns: neither is a whole number of tiles. -/
def narrowStrip : Plane where
  height := 1
  width := 3
  type := .byte
  cells := #[WholeType.byte.wrap 10, WholeType.byte.wrap 20, WholeType.byte.wrap 30]
  size_eq := rfl

theorem splitChannels_partitions_narrowStrip :
    bayerTile.IsAccepted ∧ ∃ cells hsize,
      narrowStrip.splitChannels bayerTile = .ok ⟨.whole .byte, [4, 1, 3], cells, hsize⟩ ∧
      ∃ v, cells[2]? = some v ∧ v.val = 30 := by
  have hlabels : MosaicPattern.ofLabels "RGGB" = .ok bayerTile := rfl
  have hm : bayerTile.IsAccepted := .ofLabels hlabels
  rcases (splitChannels_partitions narrowStrip bayerTile hm).2.2.2 with
    ⟨cells, hsize, hsplit, hsites⟩
  rcases (hsites 0 2 (by decide) (by decide)).1 0 (by decide) with ⟨v, hv, hvalue⟩
  exact ⟨hm, cells, hsize, hsplit, v, hv, hvalue.trans (by decide)⟩

end Plane

end Darkroom
