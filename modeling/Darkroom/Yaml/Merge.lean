import Darkroom.Yaml.Node

/-!
# Tables that take over others

A table may take over the entries of another table, or of several, with an entry whose key is the
sign for it. The entries that are taken over come first, so that those of its own win; of several
tables, the first one comes last. Tables that are taken over take over others first.

A table may be told to take over itself, or one that is in the middle of taking over. Each entry
that says so is therefore removed before it is followed: whoever comes back to the table finds the
entries that are left. That also bounds the work by the number of such entries.

## Main definitions

* `Yaml.Merging`: Changing nodes, or failing.
* `Yaml.flatten`: Gives a table all entries that it takes over.
-/

namespace Darkroom

namespace Yaml

/-- Changing nodes, or failing. -/
abbrev Merging := StateT Graph (Except Failure)

/-- An entry of a table: its key and its value. -/
abbrev Entry := NodeId × NodeId

namespace Graph

/-- Whether an entry says what to take over. -/
def isMerge (g : Graph) (entry : Entry) : Bool := g.tag entry.1 = coreTag "merge"

/-- The number of entries that say what to take over. -/
def mergeCount (g : Graph) : Nat :=
  ((List.range g.size).flatMap fun (id : Nat) => (g.entries id).filter g.isMerge).length

/-- A graph where the keys of a table stand for themselves, the equals sign included. -/
def settleKeys (g : Graph) (id : NodeId) : Graph :=
  (g.entries id).foldl (fun g (key, _) =>
    if g.tag key = coreTag "value" then g.setTag key (coreTag "str") else g) g

end Graph

mutual

/-- Gives a table all entries that it takes over. -/
def flattenWithin : Nat → NodeId → Merging Unit
  | 0, _ => throw .unconstructibleDocument
  | fuel + 1, id => do
    let front ← takeOver fuel id
    modify fun g =>
      let g := g.settleKeys id
      if front.isEmpty then g else g.setContent id (.mapping (front ++ g.entries id))

/-- Removes the entries of a table that say what to take over, and gives what they stand for. -/
def takeOver : Nat → NodeId → Merging (List Entry)
  | 0, _ => throw .unconstructibleDocument
  | fuel + 1, id => do
    let g ← get
    let entries := g.entries id
    match entries.find? g.isMerge with
    | none => return []
    | some entry =>
      let before := entries.takeWhile fun e => !g.isMerge e
      set (g.setContent id (.mapping (before ++ entries.drop (before.length + 1))))
      let first ← takenEntries fuel entry.2
      return first ++ (← takeOver fuel id)

/-- The entries of a table that is taken over, or of a list of tables. -/
def takenEntries : Nat → NodeId → Merging (List Entry)
  | 0, _ => throw .unconstructibleDocument
  | fuel + 1, id => do
    let flat (table : NodeId) : Merging (List Entry) := do
      if !(← get).isMapping table then throw .unconstructibleDocument
      flattenWithin fuel table
      return (← get).entries table
    match ((← get).node id).content with
    | .scalar _ => throw .unconstructibleDocument
    | .mapping _ => flat id
    | .sequence tables => return (← tables.mapM flat).reverse.flatten

end

/-- Gives a table all entries that it takes over. Every entry that is followed is removed before,
and takes three steps at most. -/
def flatten (id : NodeId) : Merging Unit := do
  let g ← get
  if (g.entries id).any g.isMerge then flattenWithin (3 * g.mergeCount + 3) id
  else set (g.settleKeys id)

end Yaml

end Darkroom
