import Flowgraph.Signal

/-!
# Graphs

Nodes are instances of block types; an edge joins the output of one node to an
input of another.  Nodes are referred to by id.
-/

namespace Flowgraph

namespace Graph

structure Node where
  id : String
  blockType : String
  params : Params
  label : Option String
deriving Repr

/-- The name a node is shown by: its label, unless that is missing or empty. -/
def Node.displayName (n : Node) : String :=
  match n.label with
  | none => n.id
  | some label => if label = "" then n.id else label

/-- A connection from the output of `source` to an input of `target`. -/
structure Edge where
  id : String
  source : String
  target : String
  sourceHandle : Option String
  targetHandle : Option String
deriving DecidableEq, Repr

def find? (nodes : List Node) (id : String) : Option Node :=
  nodes.find? fun n => n.id = id

/-- Edges entered under the ids of nodes, in order of entry. -/
abbrev Index := List (String × List Edge)

namespace Index

/-- Enter an edge under an id; an id that is not in the index is passed over. -/
def enter : Index → String → Edge → Index
  | [], _, _ => []
  | (id, entered) :: rest, key, e =>
    if id = key then (id, entered ++ [e]) :: rest else (id, entered) :: enter rest key e

def build (nodes : List Node) (ends : Edge → String) (edges : List Edge) : Index :=
  edges.foldl (fun index e => index.enter (ends e) e) (nodes.map fun n => (n.id, []))

def edgesAt (index : Index) (id : String) : List Edge :=
  (index.lookup id).getD []

def targets (index : Index) (id : String) : List String :=
  (index.edgesAt id).map (·.target)

def sources (index : Index) (id : String) : List String :=
  (index.edgesAt id).map (·.source)

end Index

end Graph

end Flowgraph
