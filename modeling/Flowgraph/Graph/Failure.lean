import Flowgraph.Catalog.Registry
import Flowgraph.Graph.Basic

/-!
# Why a graph does not compile
-/

namespace Flowgraph

namespace Graph

inductive Failure where
  | duplicateNode (id : String)
  | unknownNode (edge : Edge) (missing : String)
  | typeMismatch (edge : Edge) (source target : Node) (given wanted : Option SignalType)
  | cyclic (paths : List (List String))
  | unordered

def typeName : Option SignalType → String
  | none => "none"
  | some type => type.name

namespace Failure

def code : Failure → String
  | duplicateNode _ => "DUPLICATE_NODE_ID"
  | unknownNode .. => "INVALID_CONNECTION"
  | typeMismatch .. => "TYPE_MISMATCH"
  | cyclic _ => "CYCLE_DETECTED"
  | unordered => "TOPOLOGICAL_SORT_FAILED"

def message : Failure → String
  | duplicateNode id => s!"Node id '{id}' is used by more than one node"
  | unknownNode edge missing => s!"Edge '{edge.id}' references unknown node '{missing}'"
  | typeMismatch _ source target given wanted =>
    s!"Incompatible signal types: {source.displayName} ({typeName given}) -> " ++
      s!"{target.displayName} ({typeName wanted})"
  | cyclic paths =>
    "Graph contains cycles: " ++ "; ".intercalate (paths.map fun path => " -> ".intercalate path)
  | unordered => "Topological sort could not order every node (graph may contain a cycle)"

end Failure

/-- Ids of a list that occurred before, each once, at its second occurrence. -/
def repeatedIds (seen found : List String) : List String → List String
  | [] => []
  | id :: rest =>
    if id ∈ seen ∧ id ∉ found then id :: repeatedIds seen (id :: found) rest
    else repeatedIds (id :: seen) found rest

/-- What is wrong with an edge, if anything; signals are only read between known nodes. -/
def edgeFailure? (catalog : Catalog) (nodes : List Node) (edge : Edge) :
    Except Fault (Option Failure) :=
  match find? nodes edge.source, find? nodes edge.target with
  | none, _ => .ok (some (.unknownNode edge edge.source))
  | some _, none => .ok (some (.unknownNode edge edge.target))
  | some source, some target => do
    let given ← (catalog.signalsFor source.blockType).output
    let wanted ← (catalog.signalsFor target.blockType).input
    if given = wanted then return none
    return some (.typeMismatch edge source target given wanted)

def edgeFailures (catalog : Catalog) (nodes : List Node) :
    List Edge → Except Fault (List Failure)
  | [] => .ok []
  | edge :: rest => do
    let failure? ← edgeFailure? catalog nodes edge
    let more ← edgeFailures catalog nodes rest
    return failure?.toList ++ more

end Graph

end Flowgraph
