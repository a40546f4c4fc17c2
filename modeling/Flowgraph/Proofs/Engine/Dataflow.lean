import Flowgraph.Proofs.Engine.Calls
import Flowgraph.Proofs.Engine.Steps
import Flowgraph.Proofs.Graph.Compile

/-!
# The dataflow equations of a cycle

A plan puts every node behind the nodes it depends on, so a step never misses an
input.  A complete cycle publishes for every node the value of its process on
the values that the sources of the edges into it publish in the same cycle.
-/

namespace Flowgraph

namespace Engine

open Block Flowgraph.Graph

/-! ## What a node runs with -/

def paramsOf (catalog : Catalog) (n : Node) : Params :=
  match catalog.resolve n.blockType with
  | some d => d.defaults.update n.params
  | none => n.params

def processOf (catalog : Catalog) (n : Node) : Transfer :=
  match catalog.resolve n.blockType with
  | some d => d.process
  | none => passFirst

def initialOf (catalog : Catalog) (n : Node) : Except Fault (Option Record) :=
  match catalog.resolve n.blockType with
  | some d => d.initialRecord
  | none => .ok none

def recordAt (catalog : Catalog) (kept : Records) (n : Node) : Except Fault (Option Record) :=
  match kept.lookup n.id with
  | some record => .ok record
  | none => initialOf catalog n

theorem stepOf_eq (catalog : Catalog) (plan : Plan) (n : Node) :
    stepOf catalog plan n =
      ⟨n, paramsOf catalog n, plan.dependenciesOf n.id, processOf catalog n,
        initialOf catalog n⟩ := by
  unfold stepOf paramsOf processOf initialOf
  cases catalog.resolve n.blockType <;> rfl

@[simp]
theorem stepOf_node (catalog : Catalog) (plan : Plan) (n : Node) :
    (stepOf catalog plan n).node = n := by
  rw [stepOf_eq]

theorem map_node_stepsOf (catalog : Catalog) (plan : Plan) :
    (stepsOf catalog plan).map (·.node) = plan.order := by
  simp [stepsOf, Function.comp_def]

theorem map_id_stepsOf (catalog : Catalog) (plan : Plan) :
    (stepsOf catalog plan).map (·.node.id) = plan.orderIds := by
  simp [stepsOf, Plan.orderIds, Function.comp_def]

theorem orderIds_of_split {catalog : Catalog} {plan : Plan} {done rest : List Step} {step : Step}
    (split : stepsOf catalog plan = done ++ step :: rest) :
    plan.orderIds = done.map (·.node.id) ++ step.node.id :: rest.map (·.node.id) := by
  rw [← map_id_stepsOf catalog, split, List.map_append, List.map_cons]

theorem currentRecord_stepOf (catalog : Catalog) (plan : Plan) (kept : Records) (n : Node) :
    currentRecord kept (stepOf catalog plan n) = recordAt catalog kept n := by
  rw [stepOf_eq]
  rfl

/-! ## Every input is there -/

variable {checker catalog : Catalog} {nodes : List Node} {edges : List Edge} {c : Compiled}

/-- A step of a compiled plan takes its inputs from the sources of the edges into its node. -/
theorem dependencies_stepOf (compiled : compile checker nodes edges = .ok c) {n : Node}
    (mem : n ∈ c.plan.order) :
    (stepOf catalog c.plan n).dependencies = predecessors edges n.id := by
  obtain ⟨-, -, -, exact, -⟩ := of_compile_eq_ok compiled
  rw [stepOf_eq]
  unfold Plan.dependenciesOf
  rw [exact, lookup_exactPlan_dependencies _ mem]
  rfl

/-- The steps before a step of a compiled plan put out everything that it depends on. -/
theorem exists_gather_of_compile (compiled : compile checker nodes edges = .ok c)
    {settings : Settings} {machine : Machine} {kept : Records} {done rest : List Step} {step : Step}
    {p : Progress} (split : stepsOf catalog c.plan = done ++ step :: rest)
    (taken : takeSteps settings machine ⟨[], kept⟩ done = (p, none)) :
    ∃ inputs, gather p.outputs step.dependencies = .ok inputs := by
  obtain ⟨-, -, -, -, -, sequenced, -⟩ := of_compile_eq_ok compiled
  have ids := orderIds_of_split split
  have mem : step ∈ stepsOf catalog c.plan := by simp [split]
  obtain ⟨n, listed, rfl⟩ := List.mem_map.mp mem
  refine exists_gather ?_
  rw [ids] at sequenced
  have met := sequenced.met
  rwa [List.nil_append, stepOf_node, ← dependencies_stepOf compiled listed,
    ← published_takeSteps taken] at met

/-! ## What a complete cycle publishes -/

/--
The equation of a node in a cycle that started with some records and led to an
engine: the node was processed on the values published by the sources of the
edges into it and on its own record, and its value and record are there.
-/
def Solved (catalog : Catalog) (edges : List Edge) (settings : Settings) (machine : Machine)
    (kept : Records) (after : Engine) (n : Node) : Prop :=
  ∃ (signals : List Signal) (old new : Option Record) (signal : Signal),
    (predecessors edges n.id).map (after.output? ·) = signals.map some ∧
    recordAt catalog kept n = .ok old ∧
    processOf catalog n
      { inputs := signals.map some
        params := paramsOf catalog n
        rate := .int settings.sampleRate
        size := .int settings.bufferSize
        machine := machine } old = (new, .ok signal) ∧
    after.output? n.id = some signal ∧
    after.records.lookup n.id = some new

theorem solved_of_ran {e : Engine} {settings : Settings} {machine : Machine} {kept : Records}
    {p : Progress} (compiled : compile checker nodes edges = .ok c) {n : Node}
    (mem : n ∈ c.plan.order) (ran : Ran settings machine kept p (stepOf catalog c.plan n)) :
    Solved catalog edges settings machine kept (e.completed p) n := by
  obtain ⟨signals, old, new, signal, inputs, started, processed, output, record⟩ := ran
  rw [dependencies_stepOf compiled mem] at inputs
  rw [currentRecord_stepOf] at started
  rw [stepOf_eq] at processed output record
  exact ⟨signals, old, new, signal, inputs, started, processed, output, record⟩

theorem mem_sinkOutputs {plan : Plan} {outputs : List (String × Signal)} {o : SinkOutput} :
    o ∈ sinkOutputs plan outputs ↔ o.node ∈ plan.sinks ∧ outputs.lookup o.node.id = some o.data := by
  unfold sinkOutputs
  simp only [List.mem_filterMap, Option.map_eq_some_iff]
  constructor
  · rintro ⟨n, mem, data, found, rfl⟩
    exact ⟨mem, found⟩
  · rintro ⟨mem, found⟩
    exact ⟨o.node, mem, o.data, found, rfl⟩

theorem map_node_sinkOutputs_sublist (plan : Plan) (outputs : List (String × Signal)) :
    ((sinkOutputs plan outputs).map (·.node)).Sublist plan.sinks := by
  unfold sinkOutputs
  induction plan.sinks with
  | nil => exact .slnil
  | cons n rest ih =>
      cases found : outputs.lookup n.id with
      | none => simpa [found] using ih.cons n
      | some data => simpa [found] using ih.cons_cons n

theorem mem_sinks_of_compile (compiled : compile checker nodes edges = .ok c) {n : Node} :
    n ∈ c.plan.sinks ↔ n ∈ nodes ∧ successors edges n.id = [] := by
  obtain ⟨-, -, -, exact, perm, -⟩ := of_compile_eq_ok compiled
  have sinks : c.plan.sinks = c.plan.order.filter fun n => (successors edges n.id).isEmpty :=
    congrArg Plan.sinks exact
  rw [sinks, List.mem_filter, perm.mem_iff, List.isEmpty_iff]

/-- A complete cycle runs every step of the plan on the records of before the cycle. -/
theorem ran_of_cycle (compiled : compile checker nodes edges = .ok c) {e e' : Engine}
    (consistent : Consistent catalog e) (loaded : e.plan = some c.plan) {machine : Machine}
    {outs : List SinkOutput} {notices : List Notice}
    (complete : e.cycle machine = ⟨e', .ok (some outs), notices⟩) :
    ∃ p, e' = e.completed p ∧ outs = sinkOutputs c.plan p.outputs ∧
      published p.outputs = c.plan.orderIds ∧
      ∀ n ∈ c.plan.order, Ran e.settings machine e.records p (stepOf catalog c.plan n) := by
  have distinct := nodup_orderIds compiled
  rw [← map_id_stepsOf catalog] at distinct
  rcases cycle_cases machine e with ⟨-, h⟩ | ⟨plan, p, -, held, taken, h⟩ | ⟨plan, p, i, -, -, -, h⟩
  · rw [h] at complete
    cases complete
  · rw [h] at complete
    cases complete
    cases loaded.symm.trans held
    rw [consistent.steps_of_plan loaded] at taken
    obtain ⟨-, -, -, ran⟩ := ran_of_takeSteps (p := ⟨[], e.records⟩) distinct taken
    refine ⟨p, rfl, rfl, ?_, fun n mem => ran _ (List.mem_map_of_mem mem)⟩
    rw [published_takeSteps taken, map_id_stepsOf]
  · rw [h] at complete
    cases complete

/--
In an engine that holds the plan of a graph, every step finds its inputs; a
cycle that is complete has run every node once, solves the equations of all
nodes and hands out the values of exactly the nodes without outgoing edges; a
cycle that hands out nothing has not been started.
-/
theorem cycle_dataflow (compiled : compile checker nodes edges = .ok c) {e : Engine}
    (reachable : Reachable catalog e) (loaded : e.plan = some c.plan) (machine : Machine) :
    (e.steps.map (·.node)).Perm nodes ∧
    (∀ done step rest p, e.steps = done ++ step :: rest →
      takeSteps e.settings machine ⟨[], e.records⟩ done = (p, none) →
      ∃ inputs, gather p.outputs step.dependencies = .ok inputs) ∧
    (∀ e' outs notices, e.cycle machine = ⟨e', .ok (some outs), notices⟩ →
      e'.outputs.map (·.1) = e.steps.map (·.node.id) ∧
      (e'.outputs.map (·.1)).Nodup ∧
      (∀ n ∈ nodes, Solved catalog edges e.settings machine e.records e' n) ∧
      (outs.map (·.node)).Nodup ∧
      ∀ n data, ⟨n, data⟩ ∈ outs ↔
        n ∈ nodes ∧ (∀ edge ∈ edges, edge.source ≠ n.id) ∧ e'.output? n.id = some data) ∧
    (∀ e' notices, e.cycle machine = ⟨e', .ok none, notices⟩ → e' = e ∧ e.status ≠ .running) := by
  obtain ⟨unique, -, -, exact, perm, -⟩ := of_compile_eq_ok compiled
  have steps := reachable.consistent.steps_of_plan loaded
  have distinct : c.plan.orderIds.Nodup := (perm.map _).nodup_iff.mpr unique
  refine ⟨?_, ?_, ?_, ?_⟩
  · rw [steps, map_node_stepsOf]
    exact perm
  · intro done step rest p split taken
    exact exists_gather_of_compile compiled (steps ▸ split) taken
  · intro e' outs notices complete
    obtain ⟨p, rfl, rfl, keys, ran⟩ := ran_of_cycle compiled reachable.consistent loaded complete
    have once : (published p.outputs).Nodup := by
      rw [keys]
      exact distinct
    refine ⟨?_, once, ?_, ?_, ?_⟩
    · rw [steps, map_id_stepsOf]
      exact keys
    · intro n mem
      have listed : n ∈ c.plan.order := perm.mem_iff.mpr mem
      exact solved_of_ran compiled listed (ran n listed)
    · have sinks : c.plan.sinks.Nodup := by
        rw [exact]
        exact (perm.nodup_iff.mpr unique.of_map).filter _
      exact (map_node_sinkOutputs_sublist _ _).nodup sinks
    · intro n data
      rw [mem_sinkOutputs, mem_sinks_of_compile compiled, and_assoc]
      have none : successors edges n.id = [] ↔ ∀ edge ∈ edges, edge.source ≠ n.id := by
        simp [successors]
      rw [none]
      rfl
  · intro e' notices nothing
    rcases cycle_cases machine e with ⟨idle, h⟩ | ⟨plan, p, -, -, -, h⟩ | ⟨plan, p, i, -, -, -, h⟩
    · rw [h] at nothing
      cases nothing
      refine ⟨rfl, idle.resolve_right fun empty => ?_⟩
      cases loaded.symm.trans empty
    · rw [h] at nothing
      cases nothing
    · rw [h] at nothing
      cases nothing

def sized (size : Nat) (positive : 0 < size) : Settings :=
  ⟨8000, size, by decide, positive⟩

def doubling : Engine :=
  ((new .builtin).perform
    (.prepare (exactPlan twiceFed.2 twiceFed.1.reverse)
      (.replace (sized 2 (by decide))))).perform .start

theorem cycle_dataflow_doubling :
    ∃ c e' outs notices, compile .builtin twiceFed.1 twiceFed.2 = .ok c ∧
      Reachable .builtin doubling ∧ doubling.plan = some c.plan ∧
      doubling.cycle .bare = ⟨e', .ok (some outs), notices⟩ ∧
      (∀ n ∈ twiceFed.1, Solved .builtin twiceFed.2 doubling.settings .bare
        doubling.records e' n) ∧
      ∃ data, ⟨⟨"scope", "OSCILLOSCOPE", [], none⟩, data⟩ ∈ outs := by
  have reachable : Reachable .builtin doubling := .call _ (.call _ .new)
  have loaded : doubling.plan = some (exactPlan twiceFed.2 twiceFed.1.reverse) := rfl
  obtain ⟨-, -, complete, -⟩ :=
    cycle_dataflow compile_twiceFed reachable loaded .bare
  have result : (doubling.cycle .bare).result.toOption.join.isSome := by rfl
  rcases h : doubling.cycle .bare with ⟨e', fault | _ | outs, notices⟩
  · rw [h] at result
    cases result
  · rw [h] at result
    cases result
  · obtain ⟨-, -, solved, -, sinks⟩ := complete e' outs notices h
    refine ⟨_, e', outs, notices, compile_twiceFed, reachable, loaded, rfl, solved, ?_⟩
    obtain ⟨-, -, -, data, -, -, -, output, -⟩ :=
      solved ⟨"scope", "OSCILLOSCOPE", [], none⟩ (by simp [twiceFed])
    exact ⟨data, (sinks _ data).mpr ⟨by simp [twiceFed], by simp [twiceFed], output⟩⟩

end Engine

end Flowgraph
