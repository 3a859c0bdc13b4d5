import Darkroom.Samples.Basic
import Darkroom.Text.LetterCase

/-!
# Normalised tensors

Four planes of shares, red, the two greens and blue, each half as high and half as wide as the
sensor. The planes lie one after the other, each row by row: the share of plane `k` in row `i` and
column `j` is number `(k · height + i) · width + j`.

## Main definitions

* `Tensor`: Four planes.
* `planeNames`: The names of the planes, in order.
* `Tensor.planeNamed`: The plane of a name.
* `Tensor.planar`: The shares of all planes in one row.
-/

namespace Darkroom

/-- The names of the planes, in order. -/
def planeNames : List String := ["R", "G1", "G2", "B"]

/-- Four planes of shares. -/
structure Tensor where
  height : Nat
  width : Nat
  cells : Array Single
  size_eq : cells.size = 4 * (height * width)

namespace Tensor

/-- The tensor of an array of four planes. -/
def ofSamples (a : Samples) : Except Failure Tensor :=
  match h : a.shape with
  | [4, height, width] =>
    .ok ⟨height, width, a.cells.map a.type.toSingle, by simp [a.size_eq, h, volume]⟩
  | shape => .error (.tensorShape shape)

/-- The planes as an array. -/
def toSamples (t : Tensor) : Samples where
  type := .single
  shape := [4, t.height, t.width]
  cells := t.cells
  size_eq := by
    show t.cells.size = _
    simp [volume, t.size_eq]

/-- The shares of all planes in one row. -/
def planar (t : Tensor) : Samples where
  type := .single
  shape := [t.cells.size]
  cells := t.cells
  size_eq := (Nat.mul_one _).symm

/-- A share of a plane. -/
def share (t : Tensor) (plane row col : Nat) : Single :=
  t.cells.getD ((plane * t.height + row) * t.width + col) 0

/-- One of the planes. -/
def plane (t : Tensor) (k : Fin 4) : Samples where
  type := .single
  shape := [t.height, t.width]
  cells := t.cells.extract (k * (t.height * t.width)) ((k + 1) * (t.height * t.width))
  size_eq := by
    have h := t.size_eq
    have hk : ((k : Nat) + 1) * (t.height * t.width) ≤ 4 * (t.height * t.width) :=
      Nat.mul_le_mul_right _ (by omega)
    show (t.cells.extract _ _).size = _
    rw [Array.size_extract, h, Nat.min_eq_left hk, ← Nat.sub_mul]
    simp [volume]

/-- The plane of a name, in any letter case. -/
def planeNamed (t : Tensor) (name : String) : Except Failure Samples :=
  match planeNames.findFinIdx? (· = upperCase name) with
  | some k => .ok (t.plane k)
  | none => .error .unknownPlane

end Tensor

end Darkroom
