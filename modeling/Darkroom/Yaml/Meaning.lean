import Darkroom.Yaml.CoreType
import Darkroom.Yaml.Document
import Darkroom.Yaml.Merge

/-!
# The meaning of documents

The value of a document. A node's tag decides what it means: texts become numbers, flags and
moments, collections become lists and tables. What is a node once is a value once.

A document may hold several nodes without a meaning. The failure that is reported is the first one
of the outermost collection that has any: the parts of a collection are looked at one after the
other, and collections inside it only after all collections around them. Tables take over others
when it is their turn, and an equals sign among their keys means only itself from then on. So first
every node gets its meaning, in this order, and then the value is put together.

## Main definitions

* `Yaml.Construction`: What is known of the meaning of nodes.
* `Yaml.Construction.build`: The value of a node.
* `Yaml.read`: The value of a document.
-/

namespace Darkroom

namespace Yaml

/-- The text of a scalar. A table stands for the value under its equals sign. -/
def scalarText (g : Graph) : Nat → NodeId → Except Failure String
  | 0, _ => .error .endlessDocument
  | fuel + 1, id =>
    match (g.node id).content with
    | .scalar text => .ok text
    | .sequence _ => .error .unconstructibleDocument
    | .mapping entries =>
      match entries.find? fun (key, _) => g.tag key = coreTag "value" with
      | some (_, value) => scalarText g fuel value
      | none => .error .unconstructibleDocument

/-- What a node means: a value with the text that it was made of, or a collection of parts that may
not have a meaning yet. -/
inductive Meaning where
  | scalar (value : Value) (text : String)
  | collection (type : CoreType)

/-- What is known of the meaning of nodes. Collections are waiting, the last one first, as long as
their parts have no meaning. -/
structure Construction where
  graph : Graph
  meanings : Array (Option Meaning)
  waiting : List NodeId

/-- Giving nodes a meaning. -/
abbrev Constructing := StateT Construction (Except Failure)

namespace Constructing

/-- Fails for a node that has no meaning. -/
def meaningless {α : Type} : Constructing α := throw .unconstructibleDocument

/-- What a node holds. -/
def content (id : NodeId) : Constructing Content := return ((← get).graph.node id).content

/-- Notes the meaning of a node. -/
def note (id : NodeId) (meaning : Meaning) : Constructing Unit :=
  modify fun c => { c with meanings := c.meanings.setIfInBounds id (some meaning) }

/-- The meaning of a node that is made of a text. -/
def scalarMeaning (g : Graph) (id : NodeId) (type : CoreType) : Except Failure Meaning := do
  let text ← scalarText g (g.size + 1) id
  -- A moment is read from the node itself, and not from what a table stands for.
  if type = .moment && g.isMapping id then .error .wrongType
  return .scalar (← scalarValue type text) text

/-- The meaning of a node. A node has one meaning, whenever it is asked for. -/
def meaning (id : NodeId) : Constructing Meaning := do
  let c ← get
  match c.meanings.getD id none with
  | some known => return known
  | none =>
    match CoreType.ofTag? (c.graph.tag id) with
    | none => meaningless
    | some type =>
      let found ← if type.isScalar then scalarMeaning c.graph id type else pure (.collection type)
      note id found
      if !type.isScalar then modify fun c => { c with waiting := id :: c.waiting }
      return found

/-- Gives a key and its value a meaning. -/
def entry (key value : NodeId) : Constructing Unit := do
  let _ ← meaning key
  let _ ← meaning value

/-- Takes over entries of other tables. -/
def merge (id : NodeId) : Constructing Unit := do
  let c ← get
  let ((), graph) ← (flatten id).run c.graph
  set { c with graph }

/-- Gives the parts of a collection a meaning. A collection cannot be the key of a table. -/
def parts (id : NodeId) (type : CoreType) : Constructing Unit := do
  match type, ← content id with
  | .items, .sequence items =>
    for item in items do
      let _ ← meaning item
  | .pairs, .sequence items =>
    for item in items do
      match ← content item with
      | .mapping [(key, value)] => entry key value
      | _ => meaningless
  | .table, .mapping _ | .set, .mapping _ =>
    merge id
    for (key, value) in (← get).graph.entries id do
      match ← meaning key with
      | .scalar .. => entry key value
      | .collection _ => meaningless
  | _, _ => meaningless

/-- Gives the parts of all waiting collections a meaning, then those of the collections among them,
and so on. -/
def layers : Nat → Constructing Unit
  | 0 => pure ()
  | fuel + 1 => do
    let layer := (← get).waiting.reverse
    if !layer.isEmpty then
      modify fun c => { c with waiting := [] }
      for id in layer do
        match ← meaning id with
        | .collection type => parts id type
        | .scalar .. => pure ()
      layers fuel

/-- Gives a node and everything in it a meaning. -/
def all (root : NodeId) : Constructing Unit := do
  let _ ← meaning root
  layers ((← get).graph.size + 1)

end Constructing

namespace Construction

/-- Nodes none of which has a meaning yet. -/
def ofGraph (g : Graph) : Construction := ⟨g, Array.replicate g.size none, []⟩

/-- The value of a key. -/
def keyValue (c : Construction) (id : NodeId) : Value :=
  match c.meanings.getD id none with
  | some (.scalar value _) => value
  | _ => .null

/-- Whether a key is not-a-number under its own name. -/
def isUndefinedKey (c : Construction) (id : NodeId) : Bool :=
  match c.meanings.getD id none with
  | some (.scalar (.real x) text) => x.isNaN && isUndefined text
  | _ => false

/-- Whether two keys are one. Not-a-number differs from itself, but not under its own name, nor as
one node. -/
def sameKey (c : Construction) (a b : NodeId) : Bool :=
  a = b || (c.keyValue a).same (c.keyValue b) || (c.isUndefinedKey a && c.isUndefinedKey b)

/-- The entries of a table with one more; a key that is already there keeps its place and takes the
new value. -/
def insert (c : Construction) (key : NodeId) (value : Value) :
    List (NodeId × Value) → List (NodeId × Value)
  | [] => [(key, value)]
  | entry :: rest =>
    if c.sameKey entry.1 key then (entry.1, value) :: rest else entry :: c.insert key value rest

/-- A value, and the marks of the nodes around it that it contains. -/
abbrev Marked (α : Type) := α × List NodeId

/-- Putting values together. Those that contain no node around them are kept. -/
abbrev Building := StateM (Array (Option Value))

/-- Values one after the other, with all their marks. -/
def buildAll {α β : Type} (one : α → Building (Marked β)) (parts : List α) :
    Building (Marked (List β)) := do
  let built ← parts.mapM one
  return (built.map Prod.fst, (built.flatMap Prod.snd).eraseDups)

/-- The value of a node inside some others. One of these again is only a mark, and whoever contains
a mark is on the way from it to itself, so that it needs a mark of its own. -/
def buildWithin (c : Construction) : Nat → List NodeId → NodeId → Building (Marked Value)
  | 0, _, id => return (.again id, [id])
  | fuel + 1, around, id => do
    if around.contains id then return (.again id, [id])
    match (← get).getD id none, c.meanings.getD id none with
    | some known, _ => return (known, [])
    | none, some (.scalar value _) => return (value, [])
    | none, none => return (.null, [])
    | none, some (.collection type) =>
      let part (part : NodeId) : Building (Marked Value) := c.buildWithin fuel (id :: around) part
      let entry : Entry → Building (Marked (NodeId × Value)) := fun (key, value) => do
        let (value, marks) ← part value
        return ((key, value), marks)
      let table (entries : List (NodeId × Value)) : List (Value × Value) :=
        (entries.foldl (fun table (key, value) => c.insert key value table) []).map
          fun (key, value) => (c.keyValue key, value)
      let pair (item : NodeId) : Building (Marked Value) := do
        let (values, marks) ← buildAll part ((c.graph.entries item).flatMap fun (k, v) => [k, v])
        return (.tuple values, marks)
      let (value, marks) ← match type, (c.graph.node id).content with
        | .pairs, .sequence items => do
          let (values, marks) ← buildAll pair items
          pure (Value.items values, marks)
        | _, .sequence items => do
          let (values, marks) ← buildAll part items
          pure (Value.items values, marks)
        | _, _ => do
          let (entries, marks) ← buildAll entry (c.graph.entries id)
          pure (if type = .set then .ofMembers ((table entries).map Prod.fst)
            else .table (table entries), marks)
      if marks.isEmpty then
        modify fun known => known.setIfInBounds id (some value)
        return (value, [])
      else return (.tied id value, marks.filter (· ≠ id))

/-- The value of a node. Nodes inside each other are different ones, or one is only a mark. -/
def build (c : Construction) (root : NodeId) : Value :=
  ((c.buildWithin (c.graph.size + 1) [] root).run (Array.replicate c.graph.size none)).1.1

end Construction

/-- The value of a document. An empty one means nothing. -/
def read (pages : Pages) : Except Failure Value := do
  match ← readDocument pages with
  | none => return .null
  | some (graph, root) =>
    let ((), construction) ← (Constructing.all root).run (.ofGraph graph)
    return construction.build root

end Yaml

end Darkroom
