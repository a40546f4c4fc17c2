import Flowgraph.Graph.Basic

/-!
# Graph records

Graphs as plain records for a storage layer, and back.  A node record may keep
the fields of its block under `data`, as graph editors do.
-/

namespace Flowgraph

/-- A graph as it is stored: its nodes and edges, and how an editor looked at it. -/
structure Layout where
  nodes : List Graph.Node
  edges : List Graph.Edge
  viewport : Option Params

namespace Layout

def optionalText : Value → Except Fault (Option String)
  | .null => .ok none
  | v => v.toText.map some

/-- The record that holds the fields of the block of a node. -/
def blockFields (item : Params) : Params :=
  match item.get "data" with
  | .object data => data
  | _ => item

def readNode (index : Nat) (item : Value) : Except Fault Graph.Node := do
  let item ← item.asObject
  let data := blockFields item
  let id := item.get "id"
  let blockType := data.getD "blockType" (data.get "block_type")
  if !id.isGiven then throw (.nodeWithoutId index)
  if !blockType.isGiven then throw (id.named (.nodeWithoutType index))
  let id ← id.toText
  let blockType ← blockType.toText
  let params ← ((data.get "params").orElse (.object [])).toParams
  let label ← optionalText (data.get "label")
  return ⟨id, blockType, params, label⟩

/-- Read the edge record at a position; an edge without id is named after its position. -/
def readEdge (index : Nat) (item : Value) : Except Fault Graph.Edge := do
  let item ← item.asObject
  if !(item.get "source").isGiven then throw (.edgeWithout index "source")
  if !(item.get "target").isGiven then throw (.edgeWithout index "target")
  let id ← ((item.get "id").orElse (.text s!"e{index}")).toText
  let source ← (item.get "source").toText
  let target ← (item.get "target").toText
  let sourceHandle ← optionalText (item.getD "sourceHandle" (item.get "source_handle"))
  let targetHandle ← optionalText (item.getD "targetHandle" (item.get "target_handle"))
  return { id, source, target, sourceHandle, targetHandle }

def readAll {β : Type} (read : Nat → Value → Except Fault β) (index : Nat) :
    List Value → Except Fault (List β)
  | [] => .ok []
  | item :: rest => do
    let b ← read index item
    let more ← readAll read (index + 1) rest
    return b :: more

/-- The items under a key; a missing or empty entry has none. -/
def itemsUnder (data : Params) (key : String) : Except Fault (List Value) :=
  ((data.get key).orElse (.list [])).elements

def readViewport : Value → Except Fault (Option Params)
  | .null => .ok none
  | v => v.toParams.map some

def ofRecords (data : Value) : Except Fault Layout := do
  let data ← data.asObject
  let nodes ← itemsUnder data "nodes"
  let nodes ← readAll readNode 0 nodes
  let edges ← itemsUnder data "edges"
  let edges ← readAll readEdge 0 edges
  let viewport ← readViewport (data.get "viewport")
  return ⟨nodes, edges, viewport⟩

/-- An entry that is only written when there is something to write. -/
def optionalEntry (key : String) : Option String → Params
  | none => []
  | some text => [(.text key, .text text)]

def nodeRecord (n : Graph.Node) : Value :=
  let entries : Params :=
    [("id", .text n.id), ("blockType", .text n.blockType), ("params", .object n.params)]
  .object (entries ++ optionalEntry "label" n.label)

def edgeRecord (e : Graph.Edge) : Value :=
  let entries : Params :=
    [("id", .text e.id), ("source", .text e.source), ("target", .text e.target)]
  .object (entries ++ optionalEntry "sourceHandle" e.sourceHandle ++
    optionalEntry "targetHandle" e.targetHandle)

def toRecords (layout : Layout) : Value :=
  let entries : Params :=
    [("nodes", .list (layout.nodes.map nodeRecord)),
      ("edges", .list (layout.edges.map edgeRecord))]
  .object (entries ++
    match layout.viewport with
    | none => []
    | some viewport => [("viewport", .object viewport)])

end Layout

end Flowgraph
