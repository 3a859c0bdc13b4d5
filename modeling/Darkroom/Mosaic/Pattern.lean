import Darkroom.Samples.Natural
import Darkroom.Text.LetterCase

/-!
# Mosaic patterns

A sensor sees one colour at each of its sites. Which one is told by a small tile that repeats over
the sensor: a table of channel numbers, with a label for every channel. Two channels may share a
label, as the two greens of the usual tile do.

The tile is never empty and names no channel beyond the labels, so a site anywhere on the sensor,
or off it, has a channel and a label.

## Main definitions

* `MosaicPattern`: A tile of channels with their labels.
* `MosaicPattern.ofValue`: The pattern of a nested list.
* `MosaicPattern.ofLabels`: The pattern of four labels.
* `MosaicPattern.channel`, `MosaicPattern.label`: What a site sees.
-/

namespace Darkroom

/-- A tile of channels, row by row, with the labels of the channels. -/
structure MosaicPattern where
  labels : List Char
  rows : Nat
  cols : Nat
  tile : Array Nat
  rows_pos : 0 < rows
  cols_pos : 0 < cols
  size_eq : tile.size = rows * cols
  inside : ∀ i (h : i < tile.size), tile[i] < labels.length

namespace MosaicPattern

/-- A table of numbers in brackets, row by row. -/
def tableText (cols : Nat) (cells : List Int) : String :=
  let rec rowsOf : Nat → List Int → List (List Int)
    | 0, _ => []
    | _, [] => []
    | fuel + 1, cells => cells.take cols :: rowsOf fuel (cells.drop cols)
  let rowText (row : List Int) : String := "[" ++ ", ".intercalate (row.map toString) ++ "]"
  "[" ++ ", ".intercalate ((rowsOf cells.length cells).map rowText) ++ "]"

/-- The pattern of a tile, when the tile is not empty and stays within the labels. -/
def ofTile (labels : List Char) (rows cols : Nat) (tile : List Int) :
    Except Failure MosaicPattern :=
  let cells := (tile.map Int.toNat).toArray
  if h : 0 < rows ∧ 0 < cols ∧ cells.size = rows * cols then
    if inside : (∀ k ∈ tile, 0 ≤ k) ∧ ∀ i (h : i < cells.size), cells[i] < labels.length then
      .ok ⟨labels, rows, cols, cells, h.1, h.2.1, h.2.2, inside.2⟩
    else .error (.patternChannels (tableText cols tile) (quoted (String.ofList labels)))
  else .error (.patternShape [rows, cols])

/-- The pattern of an array. -/
def ofSamples (labels : List Char) (a : Samples) : Except Failure MosaicPattern :=
  match a.shape with
  | [rows, cols] =>
    let numbers := a.cells.toList.map fun cell =>
      match a.type, cell with
      | .whole _, n => n.val
      | .single, x => (Binary.truncate? (f := binary32) x).getD 0
      | .double, x => (Binary.truncate? (f := binary64) x).getD 0
    ofTile labels rows cols numbers
  | shape => .error (.patternShape shape)

/-- Channels as they are counted: with a sign and in 64 bits. -/
def channelType : SampleType := .whole longType

/-- The pattern of a nested list. -/
def ofValue (labels : String) (pattern : Value) : Except Failure MosaicPattern := do
  ofSamples labels.toList (← Samples.wholesOfValue pattern)

/-- The last place of a label. -/
def lastIndex (label : Char) (labels : List Char) : Nat :=
  labels.length - 1 - labels.reverse.idxOf label

/-- One more label of a tile, read from left to right: a label seen before keeps its channel, but
the second green gets a channel of its own. -/
def addLabel (seen : List Char × List Nat) (label : Char) : List Char × List Nat :=
  let (labels, channels) := seen
  if labels.contains label && !(label = 'G' && labels.count 'G' = 1) then
    (labels, channels ++ [lastIndex label labels])
  else (labels ++ [label], channels ++ [labels.length])

/-- The pattern of a tile of two rows and two columns, given by its labels in capitals. -/
def ofLabels (text : String) : Except Failure MosaicPattern :=
  let letters := (upperCase text).toList
  if letters.length ≠ 4 then .error (.tileLabels (quoted (String.ofList letters)))
  else
    let (labels, channels) := letters.foldl addLabel ([], [])
    ofTile labels 2 2 (channels.map Int.ofNat)

/-- The place in the tile of a site. -/
def place (p : MosaicPattern) (row col : Int) : Nat :=
  (row % p.rows).toNat * p.cols + (col % p.cols).toNat

theorem place_lt (p : MosaicPattern) (row col : Int) : p.place row col < p.tile.size := by
  have hr := p.rows_pos
  have hc := p.cols_pos
  have r0 := Int.emod_nonneg row (by omega : (p.rows : Int) ≠ 0)
  have r1 := Int.emod_lt_of_pos row (by omega : (0 : Int) < p.rows)
  have c0 := Int.emod_nonneg col (by omega : (p.cols : Int) ≠ 0)
  have c1 := Int.emod_lt_of_pos col (by omega : (0 : Int) < p.cols)
  have h : (row % p.rows).toNat + 1 ≤ p.rows := by omega
  have := Nat.mul_le_mul_right p.cols h
  rw [p.size_eq, place]
  rw [Nat.add_mul] at this
  omega

/-- The channel that a site sees. -/
def channel (p : MosaicPattern) (row col : Int) : Nat :=
  have := p.place_lt row col
  p.tile[p.place row col]

theorem channel_lt (p : MosaicPattern) (row col : Int) : p.channel row col < p.labels.length :=
  p.inside _ _

/-- The label of what a site sees. -/
def label (p : MosaicPattern) (row col : Int) : Char :=
  have := p.channel_lt row col
  p.labels[p.channel row col]

/-- The labels of the first two rows and columns. -/
def tileLabels (p : MosaicPattern) : String :=
  String.ofList [p.label 0 0, p.label 0 1, p.label 1 0, p.label 1 1]

/-- Whether the tile is red and green over green and blue. -/
def isRggb (p : MosaicPattern) : Bool := p.rows = 2 && p.cols = 2 && p.tileLabels = "RGGB"

end MosaicPattern

end Darkroom
