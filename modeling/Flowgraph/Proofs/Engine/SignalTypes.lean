import Flowgraph.Proofs.Block.Typing
import Flowgraph.Proofs.Catalog.Builtin
import Flowgraph.Proofs.Engine.BufferSize
import Flowgraph.Proofs.Engine.Dataflow

/-!
# Signals are what is declared

Edges of a compiled graph join sides of one kind and every block keeps to its
declared signals, so along the execution order every node gives and gets
buffers of the kinds it declares.  Without a Fourier transform all of them are
as long as the buffer size.
-/

namespace Flowgraph

open Block

namespace Catalog

/-- Every built-in block keeps to its signature; one of them gives buffers of any length. -/
theorem keepsTo_of_mem {allowed : Nat → Prop} {d : Descriptor} (mem : d ∈ Builtin.blocks)
    (all : d.id = "FFT" → ∀ n, allowed n) :
    ∃ s, d.signals = .declared s ∧ KeepsTo allowed s d.process := by
  simp only [Builtin.blocks, Builtin.filters, Builtin.generators, Builtin.analyzers,
    Builtin.arithmetic, Builtin.displays, List.mem_append, List.mem_cons, List.not_mem_nil,
    or_false, or_assoc] at mem
  rcases mem with rfl | rfl | rfl | rfl | rfl | rfl | rfl | rfl | rfl | rfl | rfl | rfl | rfl |
    rfl | rfl | rfl | rfl | rfl | rfl | rfl
  · exact ⟨_, rfl, keepsTo_fir none⟩
  · exact ⟨_, rfl, keepsTo_bandpass⟩
  · exact ⟨_, rfl, keepsTo_fir (some "highpass")⟩
  · exact ⟨_, rfl, keepsTo_fir (some "lowpass")⟩
  · exact ⟨_, rfl, keepsTo_transformer⟩
  · exact ⟨_, rfl, keepsTo_goertzel⟩
  · exact ⟨_, rfl, keepsTo_audioFile⟩
  · exact ⟨_, rfl, keepsTo_oscillator none false⟩
  · exact ⟨_, rfl, keepsTo_oscillator (some .sine) true⟩
  · exact ⟨_, rfl, keepsTo_oscillator (some .cosine) true⟩
  · exact ⟨_, rfl, keepsTo_sink _ _⟩
  · exact ⟨_, rfl, keepsTo_transform (all rfl)⟩
  · exact ⟨_, rfl, keepsTo_passFirst⟩
  · exact ⟨_, rfl, keepsTo_phaseDetector⟩
  · exact ⟨_, rfl, keepsTo_frequencyDetector⟩
  · exact ⟨_, rfl, keepsTo_integrator⟩
  · exact ⟨_, rfl, keepsTo_summer⟩
  · exact ⟨_, rfl, keepsTo_multiplier⟩
  · exact ⟨_, rfl, keepsTo_sink _ _⟩
  · exact ⟨_, rfl, keepsTo_sink _ _⟩

end Catalog

namespace Engine

open Flowgraph.Graph

variable {allowed : Nat → Prop} {nodes : List Node} {edges : List Edge} {c : Compiled}
  {machine : Machine} {e e' : Engine}

def Transforms (n : Node) : Prop :=
  ∃ d, Catalog.builtin.resolve n.blockType = some d ∧ d.id = "FFT"

theorem keepsTo_processOf {n : Node} (all : Transforms n → ∀ k, allowed k) :
    ∃ s, Catalog.builtin.signalsFor n.blockType = .declared s ∧
      KeepsTo allowed s (processOf .builtin n) := by
  unfold Catalog.signalsFor processOf
  cases resolved : Catalog.builtin.resolve n.blockType with
  | none => exact ⟨_, rfl, keepsTo_passFirst⟩
  | some d =>
      exact Catalog.keepsTo_of_mem (Catalog.mem_blocks_of_resolve resolved)
        fun fft => all ⟨d, resolved, fft⟩

/-- An edge into a node comes from a node that gives what the node takes. -/
theorem exists_source {checker : Catalog} (compiled : compile checker nodes edges = .ok c)
    {n : Node} (mem : n ∈ nodes) {a : String} (before : a ∈ predecessors edges n.id) :
    ∃ m ∈ nodes, m.id = a ∧
      (checker.signalsFor m.blockType).output = (checker.signalsFor n.blockType).input := by
  obtain ⟨-, fit, -⟩ := of_compile_eq_ok compiled
  obtain ⟨edge, listed, rfl, target⟩ := mem_predecessors.mp before
  obtain ⟨known, -, agree⟩ := fit edge listed
  obtain ⟨m, there, id⟩ := List.mem_map.mp known
  obtain ⟨given, taken, gives, takes, same⟩ := agree m there n mem id target.symm
  refine ⟨m, there, id, ?_⟩
  rw [declares_iff.mp gives, declares_iff.mp takes]
  exact congrArg Except.ok same

/--
What a cycle leaves when every node keeps to its declared signals: a node gives
a buffer of the kind that it declares, and so do all nodes that feed it.
-/
structure Typed (allowed : Nat → Prop) (nodes : List Node) (edges : List Edge) (after : Engine) :
    Prop where
  given : ∀ n ∈ nodes, ∀ type, (Catalog.builtin.signalsFor n.blockType).output = .ok (some type) →
    ∃ s, after.output? n.id = some s ∧ s.Fits allowed type
  taken : ∀ n ∈ nodes, ∀ type, (Catalog.builtin.signalsFor n.blockType).input = .ok (some type) →
    ∃ signals : List Signal, (predecessors edges n.id).map (after.output? ·) = signals.map some ∧
      ∀ s ∈ signals, s.Fits allowed type

/-- One node: if what feeds it is of the declared kind, so is what it gives. -/
theorem fits_of_solved {settings : Settings} {kept : Records} {after : Engine} {n : Node}
    (length : allowed settings.bufferSize) (all : Transforms n → ∀ k, allowed k)
    (solved : Solved .builtin edges settings machine kept after n)
    (inputs : ∀ type, (Catalog.builtin.signalsFor n.blockType).input = .ok (some type) →
      ∀ a ∈ predecessors edges n.id, ∀ s, after.output? a = some s → s.Fits allowed type) :
    ∀ type, (Catalog.builtin.signalsFor n.blockType).output = .ok (some type) →
      ∀ s, after.output? n.id = some s → s.Fits allowed type := by
  obtain ⟨signals, old, new, signal, read, -, processed, output, -⟩ := solved
  intro type declared s published
  cases output.symm.trans published
  obtain ⟨sides, signals', keeps⟩ := keepsTo_processOf all
  rw [signals'] at declared inputs
  refine keeps _ old signal ⟨⟨_, rfl, length⟩, ?_⟩ (congrArg (·.2) processed) type
    (Except.ok.inj declared)
  intro type wanted s mem
  rw [← read] at mem
  obtain ⟨a, before, found⟩ := List.mem_map.mp mem
  exact inputs type (congrArg Except.ok wanted) a before s found

theorem typed_of_solved (compiled : compile .builtin nodes edges = .ok c) {settings : Settings}
    {kept : Records} {after : Engine} (length : allowed settings.bufferSize)
    (all : ∀ n ∈ nodes, Transforms n → ∀ k, allowed k)
    (solved : ∀ n ∈ nodes, Solved .builtin edges settings machine kept after n) :
    Typed allowed nodes edges after := by
  obtain ⟨-, -, -, -, perm, sequenced, -⟩ := of_compile_eq_ok compiled
  have listed : ∀ n ∈ nodes, n.id ∈ c.plan.orderIds :=
    fun n mem => List.mem_map_of_mem (perm.mem_iff.mpr mem)
  have fits : ∀ id ∈ c.plan.orderIds, ∀ n ∈ nodes, n.id = id → ∀ type,
      (Catalog.builtin.signalsFor n.blockType).output = .ok (some type) →
        ∀ s, after.output? id = some s → s.Fits allowed type := by
    refine sequenced.induction ?_
    rintro id - before n mem rfl
    refine fits_of_solved length (all n mem) (solved n mem) fun type wanted a fed s found => ?_
    obtain ⟨m, there, rfl, same⟩ := exists_source compiled mem fed
    exact before m.id fed m there rfl type (same.trans wanted) s found
  constructor
  · intro n mem type declared
    obtain ⟨-, -, -, s, -, -, -, output, -⟩ := solved n mem
    exact ⟨s, output, fits n.id (listed n mem) n mem rfl type declared s output⟩
  · intro n mem type wanted
    obtain ⟨signals, -, -, -, read, -⟩ := solved n mem
    refine ⟨signals, read, fun s given => ?_⟩
    have found : some s ∈ (predecessors edges n.id).map (after.output? ·) := by
      rw [read]
      exact List.mem_map_of_mem given
    obtain ⟨a, fed, output⟩ := List.mem_map.mp found
    obtain ⟨m, there, rfl, same⟩ := exists_source compiled mem fed
    exact fits m.id (listed m there) m there rfl type (same.trans wanted) s output

/--
In every cycle that is complete, whatever the engine has been through, each node
is processed on buffers of the kinds it declares and gives one, along one axis;
if no node computes a Fourier transform, they are as long as the buffer size in
force.
-/
theorem cycle_typed (compiled : compile .builtin nodes edges = .ok c)
    (reachable : Reachable .builtin e) (loaded : e.plan = some c.plan) {outs : List SinkOutput}
    {notices : List Notice} (complete : e.cycle machine = ⟨e', .ok (some outs), notices⟩) :
    (∀ n ∈ nodes, Solved .builtin edges e.settings machine e.records e' n) ∧
      Typed (fun _ => True) nodes edges e' ∧
      ((∀ n ∈ nodes, ¬ Transforms n) → Typed (· = e.settings.bufferSize) nodes edges e') := by
  obtain ⟨p, rfl, -, -, ran⟩ := ran_of_cycle compiled reachable.consistent loaded complete
  obtain ⟨-, -, -, -, perm, -⟩ := of_compile_eq_ok compiled
  have solved : ∀ n ∈ nodes,
      Solved .builtin edges e.settings machine e.records (e.completed p) n := by
    intro n mem
    have listed : n ∈ c.plan.order := perm.mem_iff.mpr mem
    exact solved_of_ran compiled listed (ran n listed)
  refine ⟨solved, typed_of_solved compiled trivial (fun _ _ _ _ => trivial) solved, ?_⟩
  intro plain
  exact typed_of_solved compiled rfl (fun n mem fft => absurd fft (plain n mem)) solved

def humming : Engine :=
  ((new .builtin).perform
    (.prepare (exactPlan hum.2 hum.1.reverse) (.replace (sized 2 Nat.two_pos)))).perform .start

theorem not_transforms_of_id {n : Node} {id : String}
    (known : (Catalog.builtin.resolve n.blockType).map (·.id) = some id) (other : id ≠ "FFT") :
    ¬ Transforms n := by
  rintro ⟨d, resolved, fft⟩
  rw [resolved] at known
  exact other ((Option.some.inj known).symm.trans fft)

theorem not_transforms_hum : ∀ n ∈ hum.1, ¬ Transforms n := by
  unfold hum
  simp only [List.forall_mem_cons, List.not_mem_nil, false_implies, implies_true, and_true]
  refine ⟨?_, ?_, ?_, ?_, ?_⟩
  · exact not_transforms_of_id (by rfl : _ = some "CONSTELLATION") (by decide)
  · exact not_transforms_of_id (by rfl : _ = some "HILBERT_TRANSFORMER") (by decide)
  · exact not_transforms_of_id (by rfl : _ = some "INTEGRATOR") (by decide)
  · exact not_transforms_of_id (by rfl : _ = some "SUMMER") (by decide)
  · exact not_transforms_of_id (by rfl : _ = some "AUDIO_FILE") (by decide)

theorem cycle_typed_hum :
    ∃ c e' outs notices, compile .builtin hum.1 hum.2 = .ok c ∧
      Reachable .builtin humming ∧ humming.plan = some c.plan ∧
      humming.cycle .bare = ⟨e', .ok (some outs), notices⟩ ∧
      ∃ s, e'.output? "pair" = some s ∧ s.Fits (· = 2) .complex := by
  have reachable : Reachable .builtin humming := .call _ (.call _ .new)
  have loaded : humming.plan = some (exactPlan hum.2 hum.1.reverse) := rfl
  have result : (humming.cycle .bare).result.toOption.join.isSome := by rfl
  rcases h : humming.cycle .bare with ⟨e', fault | _ | outs, notices⟩
  · rw [h] at result
    cases result
  · rw [h] at result
    cases result
  · obtain ⟨-, -, typed⟩ := cycle_typed compile_hum reachable loaded h
    refine ⟨_, e', outs, notices, compile_hum, reachable, loaded, rfl, ?_⟩
    exact (typed not_transforms_hum).given
      ⟨"pair", "HILBERT_TRANSFORMER", [("order", .int 3)], none⟩ (by simp [hum]) .complex (by rfl)

end Engine

end Flowgraph
