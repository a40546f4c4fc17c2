import Flowgraph.Engine.Basic

/-!
# One cycle

The steps of a plan are taken in order; each sees the outputs of the steps
before it.  A step that fails ends the cycle, but what it and the steps before
it kept stays kept until the engine is started again.
-/

namespace Flowgraph

open Block

structure Progress where
  outputs : List (String × Signal)
  records : Records

/-- Why a cycle ended early: before a block was run, or inside one. -/
inductive Interruption where
  | before (fault : Fault)
  | inside (step : Step) (fault : Fault)

def Interruption.fault : Interruption → Fault
  | before fault => fault
  | inside _ fault => fault

namespace Engine

/-- The buffers that a step takes from the steps before it. -/
def gather (outputs : List (String × Signal)) : List String → Except Fault (List (Option Signal))
  | [] => .ok []
  | id :: rest =>
    match outputs.lookup id with
    | none => .error (.missingOutput id)
    | some signal => (gather outputs rest).map (some signal :: ·)

def currentRecord (records : Records) (step : Step) : Except Fault (Option Record) :=
  match records.lookup step.node.id with
  | some record => .ok record
  | none => step.initial

/-- Replace the record of a node, or add it at the end. -/
def keep : Records → String → Option Record → Records
  | [], id, record => [(id, record)]
  | (k, r) :: rest, id, record =>
    if k = id then (k, record) :: rest else (k, r) :: keep rest id record

def contextOf (settings : Settings) (machine : Machine) (step : Step)
    (inputs : List (Option Signal)) : Context where
  inputs := inputs
  params := step.params
  rate := .int settings.sampleRate
  size := .int settings.bufferSize
  machine := machine

def takeStep (settings : Settings) (machine : Machine) (p : Progress) (step : Step) :
    Progress × Option Interruption :=
  match gather p.outputs step.dependencies with
  | .error fault => (p, some (.before fault))
  | .ok inputs =>
    match currentRecord p.records step with
    | .error fault => (p, some (.before fault))
    | .ok record =>
      match step.process (contextOf settings machine step inputs) record with
      | (record, .error fault) =>
        ({ p with records := keep p.records step.node.id record }, some (.inside step fault))
      | (record, .ok signal) =>
        (⟨p.outputs ++ [(step.node.id, signal)], keep p.records step.node.id record⟩, none)

def takeSteps (settings : Settings) (machine : Machine) (p : Progress) :
    List Step → Progress × Option Interruption
  | [] => (p, none)
  | step :: rest =>
    match takeStep settings machine p step with
    | (p, none) => takeSteps settings machine p rest
    | (p, some interruption) => (p, some interruption)

def sinkOutputs (plan : Graph.Plan) (outputs : List (String × Signal)) : List SinkOutput :=
  plan.sinks.filterMap fun n => (outputs.lookup n.id).map fun data => ⟨n, data⟩

def interrupted (e : Engine) (records : Records) : Interruption → Engine
  | .before _ => { e with outputs := [], records := records }
  | .inside _ _ => { e with outputs := [], records := records }.stop

def interruptionNotices : Interruption → List Notice
  | .before _ => []
  | .inside step _ =>
    [⟨.error, s!"error executing node '{step.node.displayName}' ({step.node.blockType})"⟩]

def completed (e : Engine) (p : Progress) : Engine :=
  { e with
    outputs := p.outputs
    records := p.records
    timed := e.steps.map (·.node.id)
    cycles := e.cycles + 1
    samples := e.samples + e.settings.bufferSize }

/-- What one call gave beside the engine: a result or a fault, and notices. -/
structure Outcome (β : Type) where
  engine : Engine
  result : Except Fault β
  notices : List Notice

/-- Run one cycle and hand out the outputs of the sinks; nothing unless the engine runs. -/
def cycle (machine : Machine) (e : Engine) : Outcome (Option (List SinkOutput)) :=
  match e.status, e.plan with
  | .running, some plan =>
    match takeSteps e.settings machine ⟨[], e.records⟩ e.steps with
    | (p, none) => ⟨e.completed p, .ok (some (sinkOutputs plan p.outputs)), []⟩
    | (p, some i) => ⟨e.interrupted p.records i, .error i.fault, interruptionNotices i⟩
  | _, _ => ⟨e, .ok none, []⟩

end Engine

end Flowgraph
