/-!
# Lengths of codes

How long the code of each symbol is, so that frequent symbols have short codes. The two rarest are
joined into one, again and again, until everything is one tree; the depth of a symbol in it is the
length of its code. Of equally rare ones the lower tree comes first, and a heap decides what is
left undecided.

Codes have a greatest length. Leaves that lie deeper are lifted to it, and to make room for them
others are lowered: each time a leaf above the bound goes down by one and takes a lifted one beside
it. Afterwards the lengths are dealt out anew, the longest to the symbols that were joined first.

A symbol that does not occur has no code. But there are always two codes: when fewer symbols occur,
the first ones that do not get one.

## Main definitions

* `CodeTree`: A tree of symbols.
* `joinAll`: The tree of all symbols.
* `codeLengths`: The lengths of the codes.
-/

namespace Darkroom

/-- A tree with symbols as leaves. -/
inductive CodeTree where
  | leaf (symbol : Nat)
  | fork (left right : CodeTree)
  deriving Inhabited

/-- A tree with the frequency of its symbols, and its height. -/
structure WeighedTree where
  weight : Nat
  height : Nat
  tree : CodeTree
  deriving Inhabited

namespace WeighedTree

/-- Whether a tree may be joined before another one. -/
def comesFirst (a b : WeighedTree) : Bool :=
  a.weight < b.weight || (a.weight = b.weight && a.height ≤ b.height)

/-- Two trees as one. -/
def join (a b : WeighedTree) : WeighedTree :=
  ⟨a.weight + b.weight, max a.height b.height + 1, .fork a.tree b.tree⟩

/-- The symbol of a tree that is a leaf. -/
def symbol? (a : WeighedTree) : Option Nat :=
  match a.tree with
  | .leaf symbol => some symbol
  | .fork .. => none

end WeighedTree

/-- A heap: the children of place `k` are at `2k + 1` and `2k + 2`, and come after it. -/
abbrev TreeHeap := Array WeighedTree

namespace TreeHeap

/-- The child of a place that comes first. -/
def firstChild (heap : TreeHeap) (k : Nat) : Nat :=
  if 2 * k + 2 < heap.size &&
      (heap.getD (2 * k + 2) default).comesFirst (heap.getD (2 * k + 1) default) then
    2 * k + 2
  else 2 * k + 1

theorem lt_firstChild (heap : TreeHeap) (k : Nat) : k < heap.firstChild k := by
  unfold firstChild
  split <;> omega

/-- Moves what stands at a place down until it comes before its children. -/
def sift (heap : TreeHeap) (k : Nat) : TreeHeap :=
  let j := heap.firstChild k
  if 2 * k + 1 < heap.size then
    if (heap.getD k default).comesFirst (heap.getD j default) then heap
    else sift (heap.swapIfInBounds k j) j
  else heap
termination_by heap.size - k
decreasing_by
  have := heap.lt_firstChild k
  simp only [Array.size_swapIfInBounds]
  omega

/-- The heap of some trees. -/
def ofTrees (trees : Array WeighedTree) : TreeHeap :=
  (List.range (trees.size / 2)).reverse.foldl sift trees

/-- A heap with another tree in the first place. -/
def replaceFirst (heap : TreeHeap) (tree : WeighedTree) : TreeHeap :=
  sift (heap.setIfInBounds 0 tree) 0

/-- A heap without its first tree. -/
def dropFirst (heap : TreeHeap) : TreeHeap :=
  sift (heap.setIfInBounds 0 (heap.getD (heap.size - 1) default)).pop 0

end TreeHeap

/-- The tree of everything in a heap, and the symbols in the order in which they were joined. The
fuel is the number of trees. -/
def joinAll : Nat → TreeHeap → List Nat → CodeTree × List Nat
  | 0, heap, joined => ((heap.getD 0 default).tree, joined)
  | fuel + 1, heap, joined =>
    if heap.size < 2 then ((heap.getD 0 default).tree, joined)
    else
      let first := heap.getD 0 default
      let heap := heap.dropFirst
      let second := heap.getD 0 default
      joinAll fuel (heap.replaceFirst (first.join second))
        (joined ++ first.symbol?.toList ++ second.symbol?.toList)

namespace CodeTree

/-- The symbols of a tree at some depth, with their depths. -/
def depths (depth : Nat) : CodeTree → List (Nat × Nat)
  | leaf symbol => [(symbol, depth)]
  | fork left right => depths (depth + 1) left ++ depths (depth + 1) right

/-- The number of leaves and forks below a depth. -/
def countBelow (bound depth : Nat) : CodeTree → Nat
  | leaf _ => if bound < depth then 1 else 0
  | fork left right =>
    (if bound < depth then 1 else 0) + countBelow bound (depth + 1) left +
      countBelow bound (depth + 1) right

end CodeTree

/-- Symbols that occur, or that get a code all the same, with their frequencies. -/
def codedSymbols (weights : List Nat) : List (Nat × Nat) :=
  let used := (weights.zipIdx.filter (·.1 ≠ 0)).map fun (weight, symbol) => (symbol, weight)
  match used with
  -- A code needs two symbols: those that are missing are the least.
  | [] => [(0, 1), (1, 1)]
  | [(symbol, weight)] =>
    if symbol < 2 then [(symbol, weight), (symbol + 1, 1)] else [(symbol, weight), (0, 1)]
  | used => used

/-- Lowers a leaf from the deepest place above the bound that has one. `counts` are the numbers of
leaves by depth. -/
def lowerLeaf (bound : Nat) (counts : Array Nat) : Array Nat :=
  match (List.range bound).reverse.find? fun (depth : Nat) => counts.getD depth 0 ≠ 0 with
  | some depth =>
    ((counts.modify depth (· - 1)).modify (depth + 1) (· + 2)).modify bound (· - 1)
  | none => counts

/-- The numbers of leaves by depth when none lies below the bound. -/
def boundedCounts (bound : Nat) (tree : CodeTree) : Array Nat :=
  let depths := (tree.depths 0).map fun (_, depth) => min bound depth
  let counts := (Array.range (bound + 1)).map fun depth => depths.count depth
  Nat.repeat (lowerLeaf bound) ((tree.countBelow bound 0 + 1) / 2) counts

/-- The lengths of codes of symbols, at most `bound`. -/
def symbolLengths (bound : Nat) (symbols : List (Nat × Nat)) : List (Nat × Nat) :=
  let trees := symbols.map fun (symbol, weight) => WeighedTree.mk weight 0 (.leaf symbol)
  let (tree, joined) := joinAll trees.length (TreeHeap.ofTrees trees.toArray) []
  if tree.countBelow bound 0 = 0 then tree.depths 0
  else
    let counts := boundedCounts bound tree
    -- The rarest symbols were joined first, and get the longest codes.
    joined.zip ((List.range (bound + 1)).reverse.flatMap fun (depth : Nat) =>
      List.replicate (counts.getD depth 0) depth)

/-- The lengths of the codes of symbols with frequencies, up to the last symbol that has a code;
zero for symbols without one. -/
def codeLengths (bound : Nat) (weights : List Nat) : List Nat :=
  let lengths := symbolLengths bound (codedSymbols weights)
  let last := (lengths.map Prod.fst).foldl max 0
  (List.range (last + 1)).map fun (symbol : Nat) => (lengths.lookup symbol).getD 0

end Darkroom
