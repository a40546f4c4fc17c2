import Flowgraph.Engine.Settings
import Flowgraph.Graph.Compile

/-!
# The engine

An engine holds a plan and runs it one cycle at a time.  In a cycle every node
computes one buffer in plan order.  Between cycles only the records of the
nodes are kept; a failed cycle publishes nothing and stops the engine.
-/

namespace Flowgraph

open Block

inductive Status where
  | idle
  | ready
  | running
deriving DecidableEq, Repr

def Status.name : Status → String
  | idle => "idle"
  | ready => "ready"
  | running => "running"

/-- A node of a plan with everything needed to run it. -/
structure Step where
  node : Graph.Node
  params : Params
  dependencies : List String
  process : Transfer
  initial : Except Fault (Option Record)

structure SinkOutput where
  node : Graph.Node
  data : Signal

/-- Records of nodes in order of creation. -/
abbrev Records := List (String × Option Record)

/-- A plan, its settings and what its nodes keep. -/
structure Engine where
  catalog : Catalog
  settings : Settings
  plan : Option Graph.Plan
  steps : List Step
  status : Status
  outputs : List (String × Signal)
  records : Records
  timed : List String
  cycles : Nat
  samples : Nat

namespace Engine

def new (catalog : Catalog) : Engine where
  catalog := catalog
  settings := .standard
  plan := none
  steps := []
  status := .idle
  outputs := []
  records := []
  timed := []
  cycles := 0
  samples := 0

def stepOf (catalog : Catalog) (plan : Graph.Plan) (node : Graph.Node) : Step :=
  match catalog.resolve node.blockType with
  | some d =>
    ⟨node, d.defaults.update node.params, plan.dependenciesOf node.id, d.process, d.initialRecord⟩
  | none => ⟨node, node.params, plan.dependenciesOf node.id, passFirst, .ok none⟩

def stepsOf (catalog : Catalog) (plan : Graph.Plan) : List Step :=
  plan.order.map (stepOf catalog plan)

def loadNotices (catalog : Catalog) (plan : Graph.Plan) : List Notice :=
  (plan.order.filter fun n => (catalog.resolve n.blockType).isNone).map fun n =>
    ⟨.warning, s!"unknown block type '{n.blockType}' for node '{n.id}'; " ++
      "passing its first input through"⟩

/-- Load a plan; everything kept from the previous one is dropped. -/
def load (e : Engine) (plan : Graph.Plan) (settings : Settings) : Engine where
  catalog := e.catalog
  settings := settings
  plan := some plan
  steps := stepsOf e.catalog plan
  status := .ready
  outputs := []
  records := []
  timed := []
  cycles := 0
  samples := 0

/-- Load a plan and change the settings; nothing happens if the change is refused. -/
def prepare (e : Engine) (plan : Graph.Plan) (change : Settings.Change) :
    Except Fault (Engine × List Notice) :=
  match change.apply e.settings with
  | .error fault => .error fault
  | .ok settings => .ok (e.load plan settings, loadNotices e.catalog plan)

/-- Start from fresh records; an engine without a plan does not start. -/
def start (e : Engine) : Engine × Bool × List Notice :=
  match e.plan with
  | none => (e, false, [⟨.error, "cannot start: no compiled graph"⟩])
  | some _ =>
    ({ e with records := [], cycles := 0, samples := 0, status := .running }, true, [])

def stop (e : Engine) : Engine :=
  { e with status := if e.plan.isSome then .ready else .idle }

def configure (e : Engine) (change : Settings.Change) : Except Fault Engine :=
  match change.apply e.settings with
  | .error fault => .error fault
  | .ok settings => .ok { e with settings := settings }

def reset (e : Engine) : Engine :=
  { e with plan := none, steps := [], outputs := [], records := [], status := .idle }

def output? (e : Engine) (id : String) : Option Signal :=
  e.outputs.lookup id

/-- The record of a node; a node without one gets an empty one. -/
def recordFor (e : Engine) (id : String) : Engine × Option Record :=
  match e.records.lookup id with
  | some record => (e, record)
  | none => ({ e with records := e.records ++ [(id, none)] }, none)

end Engine

end Flowgraph
