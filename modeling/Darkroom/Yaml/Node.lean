import Darkroom.Yaml.Plain

/-!
# Nodes

A document as nodes. Every node has a tag that says what it means; a node without a tag of its own
gets one from its kind, and a plain scalar from its text.

An alias makes a node part of several others, and even of itself. So nodes are numbered, and a
collection holds the numbers of its parts: two parts are one node when their numbers agree.

## Main definitions

* `Yaml.Node`: A node of a document.
* `Yaml.Graph`: The nodes of a document by number.
-/

namespace Darkroom

namespace Yaml

/-- The number of a node. -/
abbrev NodeId := Nat

/-- What a node holds. -/
inductive Content where
  | scalar (text : String)
  | sequence (items : List NodeId)
  | mapping (entries : List (NodeId × NodeId))
  deriving Inhabited

/-- A node of a document. -/
structure Node where
  tag : String
  content : Content
  deriving Inhabited

/-- What is left out. -/
def Node.empty : Node := ⟨plainTag "", .scalar ""⟩

/-- The nodes of a document by number. -/
structure Graph where
  nodes : Array Node

namespace Graph

/-- The number of nodes. -/
def size (g : Graph) : Nat := g.nodes.size

/-- The node of a number. -/
def node (g : Graph) (id : NodeId) : Node := g.nodes.getD id .empty

/-- The tag of a node. -/
def tag (g : Graph) (id : NodeId) : String := (g.node id).tag

/-- The entries of a mapping. -/
def entries (g : Graph) (id : NodeId) : List (NodeId × NodeId) :=
  match (g.node id).content with
  | .mapping entries => entries
  | _ => []

/-- Whether a node is a mapping. -/
def isMapping (g : Graph) (id : NodeId) : Bool :=
  match (g.node id).content with
  | .mapping _ => true
  | _ => false

/-- A graph with one more node, and its number. -/
def add (g : Graph) (node : Node) : NodeId × Graph := (g.size, ⟨g.nodes.push node⟩)

/-- A graph with other contents of a node. -/
def setContent (g : Graph) (id : NodeId) (content : Content) : Graph :=
  ⟨g.nodes.modify id fun node => { node with content }⟩

/-- A graph with another tag of a node. -/
def setTag (g : Graph) (id : NodeId) (tag : String) : Graph :=
  ⟨g.nodes.modify id fun node => { node with tag }⟩

end Graph

end Yaml

end Darkroom
