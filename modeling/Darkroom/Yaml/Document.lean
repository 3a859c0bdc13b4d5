import Darkroom.Yaml.Lexer
import Darkroom.Yaml.Node

/-!
# Documents

The nodes that a list of tokens describes. A block is a list of items or of keys and values up to
its end; between brackets, commas separate them; whatever is left out is an empty scalar. A node
may carry a name, and a later alias stands for the node of that name. A collection gets its number
before its parts are read, so that an alias among them can stand for it.

Tokens are asked for one at a time, and the failure that follows the last token of a broken
document only shows when that token is asked for. So a document that is broken in two places fails
at the first. Every turn takes a token or follows one that did, which bounds the recursion by the
number of tokens.

## Main definitions

* `Yaml.Composing`: Taking tokens, with the nodes, names and tag handles of a document.
* `Yaml.node`: A node.
* `Yaml.readDocument`: The only document of some pages, if there is one.
-/

namespace Darkroom

namespace Yaml

/-- What is known in the middle of a document. -/
structure Progress where
  tokens : List Token
  failure : Failure
  graph : Graph
  names : List (String × NodeId)
  handles : List (String × String)

/-- Taking tokens. -/
abbrev Composing := StateT Progress (Except Failure)

namespace Composing

/-- A document whose tokens do not fit together. -/
def unparsable {α : Type} : Composing α := throw .unparsableDocument

/-- A document whose names do not fit together. -/
def uncomposable {α : Type} : Composing α := throw .uncomposableDocument

/-- The next token. -/
def peek : Composing Token := do
  let progress ← get
  match progress.tokens with
  | t :: _ => return t
  | [] => throw progress.failure

/-- Moves on by a token. -/
def skip : Composing Unit := modify fun p => { p with tokens := p.tokens.drop 1 }

/-- Takes a token if it is the next one. Tells whether it was. -/
def accept (t : Token) : Composing Bool := do
  if (← peek) = t then
    skip
    return true
  else return false

/-- Takes a token that has to be the next one. -/
def demand (t : Token) : Composing Unit := do
  if !(← accept t) then unparsable

/-- Whether the next token is one of some. -/
def sees (ts : List Token) : Composing Bool := return ts.contains (← peek)

/-- Adds a node. -/
def add (node : Node) : Composing NodeId := do
  let (id, graph) := (← get).graph.add node
  modify fun p => { p with graph }
  return id

/-- Adds a node and gives it a name, which may not be taken. -/
def addNamed (name : Option String) (node : Node) : Composing NodeId := do
  match name with
  | none => add node
  | some name =>
    if ((← get).names.lookup name).isSome then uncomposable
    let id ← add node
    modify fun p => { p with names := (name, id) :: p.names }
    return id

/-- What is left out. -/
def addEmpty : Composing NodeId := add .empty

/-- Fills a collection. -/
def fill (id : NodeId) (content : Content) : Composing Unit :=
  modify fun p => { p with graph := p.graph.setContent id content }

end Composing

open Composing

/-- The name and the tag before a node, in either order. -/
def properties : Composing (Option String × Option TagName) := do
  let takeName : Composing (Option String) := do
    match ← peek with
    | .anchor name => skip; return some name
    | _ => return none
  let takeTag : Composing (Option TagName) := do
    match ← peek with
    | .tag name => skip; return some name
    | _ => return none
  match ← takeName with
  | some name => return (some name, ← takeTag)
  | none =>
    match ← takeTag with
    | some tag => return (← takeName, some tag)
    | none => return (none, none)

/-- The full text of a tag. -/
def resolvedTag (tag : Option TagName) : Composing (Option String) := do
  match tag with
  | none => return none
  | some ⟨none, suffix⟩ => return some suffix
  | some ⟨some handle, suffix⟩ =>
    match (← get).handles.lookup handle with
    | some beginning => return some (beginning ++ suffix)
    | none => unparsable

/-- A tag, unless it says nothing, and otherwise a default. -/
def tagOr (tag : Option String) (default : String) : String :=
  match tag with
  | some text => if text = "!" then default else text
  | none => default

/-- The node of a scalar. A scalar that is tagged as nothing in particular is read as a plain one,
quotes or not. -/
def scalarNode (tag : Option String) (text : String) (plain : Bool) : Node :=
  let default := if plain || tag.isSome then plainTag text else coreTag "str"
  ⟨tagOr tag default, .scalar text⟩

/-- A list that has no items yet. -/
def sequenceNode (tag : Option String) : Node := ⟨tagOr tag (coreTag "seq"), .sequence []⟩

/-- A table that has no entries yet. -/
def mappingNode (tag : Option String) : Node := ⟨tagOr tag (coreTag "map"), .mapping []⟩

mutual

/-- A node. A block may only begin where blocks are allowed, and a list without indentation only
as a key or value of a block. -/
def node : Nat → Bool → Bool → Composing NodeId
  | 0, _, _ => throw .unparsableDocument
  | fuel + 1, inBlock, indentless => do
    match ← peek with
    | .reference name =>
      skip
      match (← get).names.lookup name with
      | some target => return target
      | none => uncomposable
    | _ =>
      let (name, tagName) ← properties
      let tag ← resolvedTag tagName
      match ← peek, inBlock, indentless with
      | .blockEntry, _, true => do
        let id ← addNamed name (sequenceNode tag)
        fill id (.sequence (← indentlessItems fuel))
        return id
      | .scalar text plain, _, _ =>
        skip
        addNamed name (scalarNode tag text plain)
      | .flowSequenceStart, _, _ => do
        skip
        let id ← addNamed name (sequenceNode tag)
        fill id (.sequence (← flowItems fuel true))
        return id
      | .flowMappingStart, _, _ => do
        skip
        let id ← addNamed name (mappingNode tag)
        fill id (.mapping (← flowEntries fuel true))
        return id
      | .blockSequenceStart, true, _ => do
        skip
        let id ← addNamed name (sequenceNode tag)
        fill id (.sequence (← blockItems fuel))
        return id
      | .blockMappingStart, true, _ => do
        skip
        let id ← addNamed name (mappingNode tag)
        fill id (.mapping (← blockEntries fuel))
        return id
      | _, _, _ =>
        if name.isNone && tag.isNone then unparsable
        addNamed name (scalarNode tag "" true)

/-- A node, unless one of some tokens follows and it is left out. -/
def nodeUnless : Nat → List Token → Bool → Bool → Composing NodeId
  | 0, _, _, _ => throw .unparsableDocument
  | fuel + 1, ends, inBlock, indentless => do
    if ← sees ends then addEmpty else node fuel inBlock indentless

/-- A node after its mark, if the mark is there. -/
def nodeAfter : Nat → Token → List Token → Bool → Bool → Composing NodeId
  | 0, _, _, _, _ => throw .unparsableDocument
  | fuel + 1, mark, ends, inBlock, indentless => do
    if ← accept mark then nodeUnless fuel ends inBlock indentless else addEmpty

/-- The items of a block. -/
def blockItems : Nat → Composing (List NodeId)
  | 0 => throw .unparsableDocument
  | fuel + 1 => do
    if ← accept .blockEntry then
      let item ← nodeUnless fuel [.blockEntry, .blockEnd] true false
      return item :: (← blockItems fuel)
    else
      demand .blockEnd
      return []

/-- The items of a list without indentation. It has no end of its own. -/
def indentlessItems : Nat → Composing (List NodeId)
  | 0 => throw .unparsableDocument
  | fuel + 1 => do
    if ← accept .blockEntry then
      let item ← nodeUnless fuel [.blockEntry, .key, .value, .blockEnd] true false
      return item :: (← indentlessItems fuel)
    else return []

/-- The keys and values of a block. -/
def blockEntries : Nat → Composing (List (NodeId × NodeId))
  | 0 => throw .unparsableDocument
  | fuel + 1 => do
    let ends : List Token := [.key, .value, .blockEnd]
    if ← accept .key then
      let key ← nodeUnless fuel ends true true
      let value ← nodeAfter fuel .value ends true true
      return (key, value) :: (← blockEntries fuel)
    else
      demand .blockEnd
      return []

/-- The items between square brackets. A key without braces makes an item of its own. -/
def flowItems : Nat → Bool → Composing (List NodeId)
  | 0, _ => throw .unparsableDocument
  | fuel + 1, first => do
    if ← accept .flowSequenceEnd then return []
    if !first then demand .flowEntry
    if ← accept .key then
      let key ← nodeUnless fuel [.value, .flowEntry, .flowSequenceEnd] false false
      let value ← nodeAfter fuel .value [.flowEntry, .flowSequenceEnd] false false
      let item ← add ⟨coreTag "map", .mapping [(key, value)]⟩
      return item :: (← flowItems fuel false)
    else if ← accept .flowSequenceEnd then return []
    else
      let item ← node fuel false false
      return item :: (← flowItems fuel false)

/-- The keys and values between braces. -/
def flowEntries : Nat → Bool → Composing (List (NodeId × NodeId))
  | 0, _ => throw .unparsableDocument
  | fuel + 1, first => do
    if ← accept .flowMappingEnd then return []
    if !first then demand .flowEntry
    if ← accept .key then
      let key ← nodeUnless fuel [.value, .flowEntry, .flowMappingEnd] false false
      let value ← nodeAfter fuel .value [.flowEntry, .flowMappingEnd] false false
      return (key, value) :: (← flowEntries fuel false)
    else if ← accept .flowMappingEnd then return []
    else
      let key ← node fuel false false
      return (key, ← addEmpty) :: (← flowEntries fuel false)

end

/-- The handles that every document knows. -/
def knownHandles : List (String × String) := [("!", "!"), ("!!", coreTag "")]

/-- The lines before a document that start with a percent sign. Handles that they define take the
place of known ones. -/
def directives : Nat → Bool → List (String × String) → Composing Unit
  | 0, _, _ => unparsable
  | fuel + 1, versioned, handles => do
    match ← peek with
    | .directive (.version major _) =>
      skip
      if versioned || major ≠ 1 then unparsable
      directives fuel true handles
    | .directive (.tag handle beginning) =>
      skip
      if (handles.lookup handle).isSome then unparsable
      directives fuel versioned ((handle, beginning) :: handles)
    | .directive .other =>
      skip
      directives fuel versioned handles
    | _ => modify fun p => { p with handles := handles ++ knownHandles }

/-- The ends of documents that may stand one after the other. -/
def documentEnds : Nat → Composing Unit
  | 0 => unparsable
  | fuel + 1 => do
    if ← accept .documentEnd then documentEnds fuel

/-- The beginning of a document with a separator. -/
def explicitStart (fuel : Nat) : Composing Unit := do
  directives fuel false []
  demand .documentStart

/-- Whether the next token is a line that starts with a percent sign. -/
def seesDirective : Composing Bool := do
  match ← peek with
  | .directive _ => return true
  | _ => return false

/-- The node of the first document. Without a separator, a document has to have one. -/
def firstNode (fuel : Nat) : Composing (Option NodeId) := do
  if (← seesDirective) || (← sees [.documentStart, .streamEnd]) then
    documentEnds fuel
    if ← accept .streamEnd then return none
    explicitStart fuel
    if (← seesDirective) || (← sees [.documentStart, .documentEnd, .streamEnd]) then
      some <$> addEmpty
    else some <$> node fuel true false
  else some <$> node fuel true false

/-- The only document. What follows it has to be its end. -/
def onlyDocument (fuel : Nat) : Composing (Option NodeId) := do
  match ← firstNode fuel with
  | none => return none
  | some root =>
    documentEnds fuel
    if !(← accept .streamEnd) then
      explicitStart fuel
      uncomposable
    return some root

/-- The only document of some pages, if there is one: its nodes, and the outermost one. -/
def readDocument (pages : Pages) : Except Failure (Option (Graph × NodeId)) := do
  let found := tokens pages
  let fuel := 4 * found.items.length + 8
  let start : Progress := ⟨found.items, found.failure, ⟨#[]⟩, [], knownHandles⟩
  let (root, progress) ← (onlyDocument fuel).run start
  return root.map fun root => (progress.graph, root)

end Yaml

end Darkroom
