import Darkroom.Mosaic.Plane

/-!
# Channels of a mosaic

A mosaic taken apart by channel: for every channel a picture as large as the sensor, with the
readings of the channel's sites and zero elsewhere. Which site belongs to which channel is read
from a map that is laid out with whole tiles and cut to the size of the sensor.

## Main definitions

* `repeatTo`: A list repeated until it has a length.
* `MosaicPattern.channelMap`: The channel of every site of a sensor.
* `Plane.splitChannels`: The readings of a sensor by channel.
-/

namespace Darkroom

/-- The least number of pieces of size `piece` that cover `length`. -/
def piecesToCover (length piece : Nat) : Nat := (length + piece - 1) / piece

/-- A list repeated as a whole often enough to have a length, and cut to that length. -/
def repeatTo {α : Type} (length : Nat) (items : List α) : List α :=
  ((List.replicate (piecesToCover length items.length) items).flatten).take length

namespace MosaicPattern

/-- A row of the tile. -/
def tileRow (p : MosaicPattern) (row : Nat) : List Nat :=
  (p.tile.toList.drop (row * p.cols)).take p.cols

/-- The channel of every site of a sensor, row by row. -/
def channelMap (p : MosaicPattern) (height width : Nat) : List (List Nat) :=
  repeatTo height ((List.range p.rows).map fun row => repeatTo width (p.tileRow row))

/-- The map of a sensor whose size is given as any whole numbers. A sensor smaller than nothing by
a whole tile is refused, one smaller by less is empty; rows without height cannot take a width
below nothing. -/
def channelMapOf (p : MosaicPattern) (height width : Int) : Except Failure Samples :=
  if height ≤ -p.rows then .error .negativeDimension
  else if width ≤ -p.cols then
    .error (if height ≤ 0 then .cannotReshape 0 (Samples.openShapeText [0, width])
      else .negativeDimension)
  else
    let cells := (p.channelMap height.toNat width.toNat).flatten.toArray.map
      fun k : Nat => WholeType.wrap ⟨true, .eight⟩ (k : Int)
    match Samples.ofCells? channelType [height.toNat, width.toNat] cells with
    | some samples => .ok samples
    | none => .error .arrayTooLarge

end MosaicPattern

namespace Plane

/-- The readings of one channel, with zero at the sites of the others. -/
def channelCells (p : Plane) (map : List Nat) (channel : Nat) : List p.type.Sample :=
  List.zipWith (fun k reading => if k = channel then reading else p.type.wrap 0) map p.cells.toList

/-- The readings of a sensor by channel: channel, height, width. -/
def splitChannels (p : Plane) (pattern : MosaicPattern) : Except Failure Samples :=
  let map := (pattern.channelMap p.height p.width).flatten
  let cells := (List.range pattern.labels.length).flatMap (p.channelCells map)
  let shape := [pattern.labels.length, p.height, p.width]
  match Samples.ofCells? (.whole p.type) shape cells.toArray with
  | some samples => .ok samples
  | none => .error .arrayTooLarge

end Plane

end Darkroom
