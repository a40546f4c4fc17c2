import Flowgraph.Graph.Cycle
import Flowgraph.Graph.Failure
import Flowgraph.Graph.Order
import Flowgraph.Notice

/-!
# Compiling a graph

A graph is checked in steps, each of which ends the compilation if it fails:
ids used twice, edges that join nothing or the wrong signals, closed paths.
What passes is ordered so that every node comes after the nodes it depends on.
-/

namespace Flowgraph

namespace Graph

structure Plan where
  order : List Node
  dependencies : List (String × List String)
  outputs : List (String × List String)
  sources : List Node
  sinks : List Node

structure Stats where
  totalNodes : Nat
  totalEdges : Nat
  executionSteps : Nat
  sourceNodes : Nat
  sinkNodes : Nat
deriving DecidableEq, Repr

structure Compiled where
  plan : Plan
  stats : Stats

def Plan.orderIds (p : Plan) : List String :=
  p.order.map (·.id)

def Plan.dependenciesOf (p : Plan) (id : String) : List String :=
  (p.dependencies.lookup id).getD []

/-- The plan for an order of the nodes, with the edges into and out of each node. -/
def planOf (order : List Node) (incoming outgoing : Index) : Plan where
  order := order
  dependencies := order.map fun n => (n.id, incoming.sources n.id)
  outputs := order.map fun n => (n.id, outgoing.targets n.id)
  sources := order.filter fun n => (incoming.sources n.id).isEmpty
  sinks := order.filter fun n => (outgoing.targets n.id).isEmpty

/-- The nodes in execution order, if all of them can be ordered. -/
def sort? (nodes : List Node) (edges : List Edge) (outgoing : Index) : Option (List Node) :=
  let ids := orderOf (nodes.map (·.id)) (edges.map (·.target)) outgoing.targets
  if ids.length = nodes.length then some (ids.filterMap (find? nodes)) else none

def closedPaths (nodes : List Node) (outgoing : Index) : List (List String) :=
  cycles (nodes.map (·.id)) outgoing.targets

/-- Why a compilation gives no plan: failures that it reports, or a fault that ends it. -/
inductive Refusal where
  | failures (found : List Failure)
  | fault (cause : Fault)

/-- Compile a graph with a given search for closed paths. -/
def compileWith (search : List Node → Index → List (List String)) (catalog : Catalog)
    (nodes : List Node) (edges : List Edge) : Except Refusal Compiled :=
  let repeated := repeatedIds [] [] (nodes.map (·.id))
  let outgoing := Index.build nodes Edge.source edges
  let incoming := Index.build nodes Edge.target edges
  if !repeated.isEmpty then .error (.failures (repeated.map .duplicateNode))
  else
    match edgeFailures catalog nodes edges with
    | .error fault => .error (.fault fault)
    | .ok faulty =>
      if !faulty.isEmpty then .error (.failures faulty)
      else if !(search nodes outgoing).isEmpty then
        .error (.failures [.cyclic (search nodes outgoing)])
      else
        match sort? nodes edges outgoing with
        | none => .error (.failures [.unordered])
        | some order =>
          let plan := planOf order incoming outgoing
          .ok ⟨plan, ⟨nodes.length, edges.length, plan.order.length, plan.sources.length,
            plan.sinks.length⟩⟩

def compile (catalog : Catalog) (nodes : List Node) (edges : List Edge) :
    Except Refusal Compiled :=
  compileWith closedPaths catalog nodes edges

/-- A compilation as it is handed out: a plan with its counts, or what is wrong. -/
structure Report where
  success : Bool
  plan : Option Plan
  failures : List Failure
  stats : Option Stats

/-- Hand out a compilation, unless a fault ended it. -/
def reportOf : Except Refusal Compiled → Except Fault Report
  | .ok c => .ok ⟨true, some c.plan, [], some c.stats⟩
  | .error (.failures found) => .ok ⟨false, none, found, none⟩
  | .error (.fault cause) => .error cause

def compileNotices : Except Refusal Compiled → List Notice
  | .error (.failures found) =>
    [⟨.warning, "graph compilation failed: " ++ quotedList (found.map Failure.code)⟩]
  | _ => []

end Graph

end Flowgraph
