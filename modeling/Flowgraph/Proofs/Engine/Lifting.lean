import Flowgraph.Proofs.Block.Streams
import Flowgraph.Proofs.Engine.Session

/-!
# Streams through a graph

If every node of a graph turns input streams into an output stream wherever
these are cut, then so does the whole graph: the stream at a node follows from
the streams at the nodes before it, along the execution order.
-/

namespace Flowgraph

namespace Engine

open Block Flowgraph.Graph

def value (e : Engine) (id : String) : Signal :=
  (e.output? id).getD (.frames [])

def duration (cycles : List (Settings × Engine)) : Nat :=
  (cycles.map (·.1.bufferSize)).sum

/-- Everything that a node published in some cycles, in order of time. -/
def stream (cycles : List (Settings × Engine)) (id : String) : List Sample :=
  cycles.flatMap fun cycle => (value cycle.2 id).samples

def Filled (cycles : List (Settings × Engine)) (id : String) : Prop :=
  ∀ cycle ∈ cycles, (value cycle.2 id).HasLength cycle.1.bufferSize

theorem value_of_output {e : Engine} {id : String} {signal : Signal}
    (h : e.output? id = some signal) : value e id = signal := by
  rw [value, h, Option.getD_some]

theorem values_of_outputs {e : Engine} {ids : List String} {signals : List Signal}
    (h : ids.map (e.output? ·) = signals.map some) : signals = ids.map (value e) := by
  have values := congrArg (List.map (·.getD (.frames []))) h
  simp only [List.map_map, Function.comp_def, Option.getD_some, List.map_id'] at values
  exact values.symm

theorem zipWith_append_nil (past : List (List Sample)) :
    past.zipWith (· ++ ·) (List.replicate past.length []) = past := by
  induction past with
  | nil => rfl
  | cons xs rest ih => simp [List.replicate_succ, ih]

theorem zipWith_nil_append (streams : List (List Sample)) :
    (List.replicate streams.length []).zipWith (· ++ ·) streams = streams := by
  induction streams with
  | nil => rfl
  | cons xs rest ih => simp [List.replicate_succ, ih]

/-- Streams that are continued by a first cycle and then by others. -/
theorem zipWith_continued (past : List (List Sample)) (ids : List String)
    (cycle : Settings × Engine) (rest : List (Settings × Engine)) :
    (continued past (ids.map (value cycle.2))).zipWith (· ++ ·) (ids.map (stream rest)) =
      past.zipWith (· ++ ·) (ids.map (stream (cycle :: rest))) := by
  induction past generalizing ids with
  | nil => rfl
  | cons xs past ih =>
      cases ids with
      | nil => rfl
      | cons id ids =>
          have tail := ih ids
          simp only [continued, List.map_map] at tail
          simp [continued, tail, stream]

variable {catalog checker : Catalog} {nodes : List Node} {edges : List Edge} {machine : Machine}
  {rate : Nat}

/-- The stream of a node over some cycles, from what it saw before them. -/
theorem stream_of_streams {n : Node} {initial : Option Record}
    {total : List (List Sample) → Nat → List Sample}
    {Holds : Option Record → List (List Sample) → Nat → Prop}
    (law : Streams (feed (processOf catalog n) (paramsOf catalog n) rate machine) initial total Holds)
    (mem : n ∈ nodes) {cycles : List (Settings × Engine)} {kept : Records}
    (solved : SolvedCycles catalog nodes edges machine kept cycles)
    (rates : ∀ cycle ∈ cycles, cycle.1.sampleRate = rate)
    (filled : ∀ id ∈ predecessors edges n.id, Filled cycles id)
    {record : Option Record} {past : List (List Sample)} {count : Nat}
    (current : recordAt catalog kept n = .ok record) (holds : Holds record past count)
    (arity : past.length = (predecessors edges n.id).length) :
    Filled cycles n.id ∧
      total (past.zipWith (· ++ ·) ((predecessors edges n.id).map (stream cycles)))
          (count + duration cycles) =
        total past count ++ stream cycles n.id := by
  -- each cycle hands its record on, together with the streams that led to it
  induction cycles generalizing kept record past count with
  | nil =>
      refine ⟨by simp [Filled], ?_⟩
      have none : (predecessors edges n.id).map (stream []) = List.replicate past.length [] := by
        rw [arity]
        exact List.map_const
      rw [none, zipWith_append_nil]
      simp [stream, duration]
  | cons cycle rest ih =>
      obtain ⟨s, e⟩ := cycle
      obtain ⟨now, later⟩ := solved
      obtain ⟨rate', rates'⟩ := List.forall_mem_cons.mp rates
      obtain ⟨signals, old, new, signal, inputs, started, processed, output, left⟩ := now n mem
      cases current.symm.trans started
      have values := values_of_outputs inputs
      have taken : feed (processOf catalog n) (paramsOf catalog n) rate machine signals
          s.bufferSize record = (new, .ok signal) := by
        rw [← rate']
        exact processed
      have lengths : ∀ x ∈ signals, x.HasLength s.bufferSize := by
        rw [values]
        intro x mem
        obtain ⟨id, before, rfl⟩ := List.mem_map.mp mem
        exact filled id before (s, e) List.mem_cons_self
      have arity' : past.length = signals.length := by rw [arity, values, List.length_map]
      obtain ⟨length, holds', continues⟩ := law.next holds arity' lengths taken
      have current' : recordAt catalog e.records n = .ok new := by rw [recordAt, left]
      have arity'' : (continued past signals).length = (predecessors edges n.id).length := by
        simp [continued, arity', values]
      obtain ⟨filled', eq⟩ := ih later rates'
        (fun id before cycle mem => filled id before cycle (List.mem_cons_of_mem _ mem))
        current' holds' arity''
      have here : value e n.id = signal := value_of_output output
      refine ⟨List.forall_mem_cons.mpr ⟨here ▸ length, filled'⟩, ?_⟩
      have duration_cons : count + duration ((s, e) :: rest) =
          count + s.bufferSize + duration rest := by
        simp only [duration, List.map_cons, List.sum_cons]
        omega
      rw [duration_cons, ← zipWith_continued, ← values, eq, continues, List.append_assoc]
      simp [stream, here]

theorem stream_of_streamed {n : Node} {initial : Option Record}
    {total : List (List Sample) → Nat → List Sample}
    {Holds : Option Record → List (List Sample) → Nat → Prop}
    (fresh : initialOf catalog n = .ok initial)
    (law : Streams (feed (processOf catalog n) (paramsOf catalog n) rate machine) initial total Holds)
    (mem : n ∈ nodes) {cycles : List (Settings × Engine)}
    (solved : SolvedCycles catalog nodes edges machine [] cycles)
    (rates : ∀ cycle ∈ cycles, cycle.1.sampleRate = rate)
    (filled : ∀ id ∈ predecessors edges n.id, Filled cycles id) :
    Filled cycles n.id ∧
      stream cycles n.id = total ((predecessors edges n.id).map (stream cycles)) (duration cycles) := by
  have arity : (List.replicate (predecessors edges n.id).length ([] : List Sample)).length =
      (predecessors edges n.id).length := List.length_replicate
  have current : recordAt catalog [] n = .ok initial := fresh
  obtain ⟨filled', eq⟩ :=
    stream_of_streams law mem solved rates filled current (law.start _) arity
  refine ⟨filled', ?_⟩
  have whole := zipWith_nil_append ((predecessors edges n.id).map (stream cycles))
  rw [List.length_map] at whole
  rw [law.nothing, List.nil_append, whole, Nat.zero_add] at eq
  exact eq.symm

/-- The nodes of a graph with streams all publish full buffers. -/
theorem filled_of_streamed {c : Compiled} (compiled : compile checker nodes edges = .ok c)
    (laws : ∀ n ∈ nodes, ∃ initial, initialOf catalog n = .ok initial ∧
      Streamed (processOf catalog n) (paramsOf catalog n) rate machine initial)
    {cycles : List (Settings × Engine)}
    (solved : SolvedCycles catalog nodes edges machine [] cycles)
    (rates : ∀ cycle ∈ cycles, cycle.1.sampleRate = rate) :
    ∀ n ∈ nodes, Filled cycles n.id := by
  obtain ⟨-, -, -, -, perm, sequenced, -⟩ := of_compile_eq_ok compiled
  have all : ∀ id ∈ c.plan.orderIds, Filled cycles id := by
    refine sequenced.induction fun id mem before => ?_
    obtain ⟨n, listed, rfl⟩ := List.mem_map.mp mem
    have known : n ∈ nodes := perm.mem_iff.mp listed
    obtain ⟨initial, fresh, total, Holds, law⟩ := laws n known
    exact (stream_of_streamed fresh law known solved rates before).1
  exact fun n mem => all n.id (List.mem_map_of_mem (perm.mem_iff.mpr mem))

/-- Two sessions of one duration give the same streams at all nodes. -/
theorem stream_eq_of_streamed {c : Compiled} (compiled : compile checker nodes edges = .ok c)
    (laws : ∀ n ∈ nodes, ∃ initial, initialOf catalog n = .ok initial ∧
      Streamed (processOf catalog n) (paramsOf catalog n) rate machine initial)
    {cycles cycles' : List (Settings × Engine)}
    (solved : SolvedCycles catalog nodes edges machine [] cycles)
    (solved' : SolvedCycles catalog nodes edges machine [] cycles')
    (rates : ∀ cycle ∈ cycles, cycle.1.sampleRate = rate)
    (rates' : ∀ cycle ∈ cycles', cycle.1.sampleRate = rate)
    (same : duration cycles = duration cycles') :
    ∀ n ∈ nodes, stream cycles n.id = stream cycles' n.id := by
  obtain ⟨-, fit, -, -, perm, sequenced, -⟩ := of_compile_eq_ok compiled
  have filled := filled_of_streamed compiled laws solved rates
  have filled' := filled_of_streamed compiled laws solved' rates'
  have known : ∀ id, ∀ a ∈ predecessors edges id, ∃ m ∈ nodes, m.id = a := by
    intro id a mem
    obtain ⟨edge, he, rfl, -⟩ := mem_predecessors.mp mem
    exact List.mem_map.mp (sources_known fit edge he)
  have all : ∀ id ∈ c.plan.orderIds, stream cycles id = stream cycles' id := by
    refine sequenced.induction fun id mem before => ?_
    obtain ⟨n, listed, rfl⟩ := List.mem_map.mp mem
    have inside : n ∈ nodes := perm.mem_iff.mp listed
    obtain ⟨initial, fresh, total, Holds, law⟩ := laws n inside
    have inputs : ∀ a ∈ predecessors edges n.id, Filled cycles a ∧ Filled cycles' a := by
      intro a mem
      obtain ⟨m, there, rfl⟩ := known n.id a mem
      exact ⟨filled m there, filled' m there⟩
    have eq := (stream_of_streamed fresh law inside solved rates fun a mem => (inputs a mem).1).2
    have eq' := (stream_of_streamed fresh law inside solved' rates' fun a mem =>
      (inputs a mem).2).2
    rw [eq, eq', same, List.map_congr_left before]
  exact fun n mem => all n.id (List.mem_map_of_mem (perm.mem_iff.mpr mem))

end Engine

end Flowgraph
