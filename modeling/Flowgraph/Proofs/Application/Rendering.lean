import Flowgraph.Proofs.Application.Repeating

/-!
# What an application renders

A run of the configured cycles fails exactly if a block fails in one of them.
If none does, every sink has given a buffer in each cycle, and the sinks that
have given real samples have given the samples of all cycles.
-/

namespace Flowgraph

namespace Engine

open Flowgraph.Graph

variable {e e' : Engine} {machine : Machine}

theorem BlockFails.exists_fault (fails : e.BlockFails machine) :
    ∃ fault, (e.cycle machine).result = .error fault := by
  obtain ⟨runs, planned, p, step, fault, taken⟩ := fails
  obtain ⟨plan, loaded⟩ := Option.isSome_iff_exists.mp planned
  rw [cycle_of_running machine runs loaded, taken]
  exact ⟨_, rfl⟩

/-- A ticker ends with a fault exactly if one of the cycles that it is to run ends with one. -/
theorem fault_ticks_iff {catalog : Catalog} {plan : Plan} (running : Running catalog plan e)
    {n index : ℕ} {seen : List (List SinkOutput)} :
    (Ticker.ticks machine Ticker.collector n index e seen).fault ≠ none ↔
      ∃ k < n, ∃ fault,
        ((e.performAll (List.replicate k (.cycle machine))).cycle machine).result = .error fault := by
  induction n generalizing e index seen with
  | zero => exact iff_of_false (fun some => some rfl) (by simp)
  | succ n ih =>
      have ahead := running.cycle machine
      -- the cycles behind the first one are those of the engine that it leaves
      have later (k : ℕ) : e.performAll (List.replicate (k + 1) (.cycle machine)) =
          (e.cycle machine).engine.performAll (List.replicate k (.cycle machine)) := rfl
      rcases cycled : e.cycle machine with ⟨after, result, notices⟩
      rw [cycled] at ahead
      rcases ahead with ⟨fault, rfl⟩ | ⟨outs, rfl, running'⟩
      · rw [ticks_of_failed cycled]
        exact iff_of_true nofun ⟨0, Nat.succ_pos n, fault, congrArg Outcome.result cycled⟩
      · rw [ticks_of_complete cycled, ih running']
        constructor
        · rintro ⟨k, less, fault, failed⟩
          refine ⟨k + 1, Nat.succ_lt_succ less, fault, ?_⟩
          rwa [later, cycled]
        · rintro ⟨k, less, fault, failed⟩
          cases k with
          | zero =>
              have none := failed.symm.trans (congrArg Outcome.result cycled)
              cases none
          | succ k =>
              rw [later, cycled] at failed
              exact ⟨k, Nat.lt_of_succ_lt_succ less, fault, failed⟩

theorem Yields.complete {cycles : List (List SinkOutput)} (yields : Yields machine e cycles) {k : ℕ}
    (less : k < cycles.length) :
    ((e.performAll (List.replicate k (.cycle machine))).cycle machine).result =
      .ok (some cycles[k]) := by
  induction cycles generalizing e k with
  | nil => cases less
  | cons outs more ih =>
      cases k with
      | zero => exact yields.1
      | succ k => exact ih yields.2 (Nat.lt_of_succ_lt_succ less)

end Engine

namespace Signal

open Block

theorem exists_map_line {signals : List Signal} {form : Form} (has : ∀ s ∈ signals, s.Has form)
    (some : signals ≠ []) {g : Grid Float} (joined : join signals = .real g) :
    ∃ buffers : List (List Float), signals = buffers.map line := by
  cases form with
  | real =>
      have made : signals ∈ Set.range (List.map line) := by
        rw [Set.range_list_map]
        intro s mem
        cases has s mem with
        | real samples => exact ⟨samples, rfl⟩
      obtain ⟨buffers, same⟩ := made
      exact ⟨buffers, same.symm⟩
  | complex =>
      have made : signals ∈ Set.range (List.map pointLine) := by
        rw [Set.range_list_map]
        intro s mem
        cases has s mem with
        | complex points => exact ⟨points, rfl⟩
      obtain ⟨parts, rfl⟩ := made
      rw [join_map_pointLine (mt List.map_eq_nil_iff.mpr some)] at joined
      cases joined
  | frames =>
      have made : signals ∈ Set.range (List.map frames) := by
        rw [Set.range_list_map]
        intro s mem
        cases has s mem with
        | frames frames => exact ⟨frames, rfl⟩
      obtain ⟨parts, rfl⟩ := made
      rw [join_map_frames (mt List.map_eq_nil_iff.mpr some)] at joined
      cases joined

end Signal

namespace Configuration

open Block Engine

/-- The engine of a configuration after it was started and some cycles were run. -/
def engineAfter (machine : Machine) (c : Configuration) (k : ℕ) : Engine :=
  (Application.ofConfiguration .builtin c).1.engine.performAll
    (.start :: List.replicate k (.cycle machine))

theorem engineAfter_succ (machine : Machine) (c : Configuration) (k : ℕ) :
    c.engineAfter machine (k + 1) = ((c.engineAfter machine k).cycle machine).engine := by
  rw [engineAfter, List.replicate_succ', ← List.cons_append, performAll_concat, perform_cycle]
  rfl

/-- A block fails in one of the cycles of a configuration. -/
def Breaks (machine : Machine) (c : Configuration) : Prop :=
  ∃ k < c.cycles, (c.engineAfter machine k).BlockFails machine

/-- In each cycle a node gives real samples, and these are what it gives one after another. -/
def Sounds (machine : Machine) (c : Configuration) (n : Graph.Node) (samples : List Float) : Prop :=
  ∃ buffers : List (List Float), buffers.length = c.cycles ∧
    (∀ k < c.cycles, (c.engineAfter machine (k + 1)).output? n.id = buffers[k]?.map line) ∧
    samples = buffers.flatten

end Configuration

namespace Application

open Block Engine

variable {configuration : Configuration} {c : Graph.Compiled} {machine : Machine}

theorem kept_engineAfter (configuration : Configuration) (machine : Machine) (k : ℕ) :
    (configuration.engineAfter machine k).plan =
        (ofConfiguration .builtin configuration).1.engine.plan ∧
      (configuration.engineAfter machine k).settings =
        (ofConfiguration .builtin configuration).1.engine.settings := by
  refine kept_performAll (List.forall_mem_cons.mpr ⟨trivial, fun call mem => ?_⟩)
  rw [List.eq_of_mem_replicate mem]
  trivial

variable
  (graph : Graph.compile .builtin configuration.graph.nodes configuration.graph.edges = .ok c)

include graph

theorem plan_engineAfter (k : ℕ) : (configuration.engineAfter machine k).plan = some c.plan :=
  (kept_engineAfter configuration machine k).1.trans (loaded_new graph).plan

theorem settings_engineAfter (k : ℕ) :
    (configuration.engineAfter machine k).settings = configuration.settings :=
  (kept_engineAfter configuration machine k).2.trans (loaded_new graph).settings

theorem reachable_engineAfter (k : ℕ) : Reachable .builtin (configuration.engineAfter machine k) :=
  reachable_performAll (loaded_new graph).reachable _

theorem running_engineAfter : Running .builtin c.plan (configuration.engineAfter machine 0) :=
  (loaded_new graph).start_running

/-! ## Runs of the configured cycles -/

theorem breaks_iff : configuration.Breaks machine ↔
    (Ticker.ticks machine Ticker.collector configuration.cycles 0
      (configuration.engineAfter machine 0) []).fault ≠ none := by
  have running : Running .builtin c.plan (configuration.engineAfter machine 0) :=
    running_engineAfter graph
  rw [fault_ticks_iff running]
  refine exists_congr fun k => and_congr_right fun _ => ⟨BlockFails.exists_fault, ?_⟩
  rintro ⟨fault, failed⟩
  exact blockFails_of_compile graph (reachable_engineAfter graph k).consistent
    (plan_engineAfter graph k) failed

theorem run_null (positive : 0 < configuration.cycles) :
    ((ofConfiguration .builtin configuration).1.run machine .null).2.1 =
      match (Ticker.ticks machine Ticker.collector configuration.cycles 0
        (configuration.engineAfter machine 0) []).fault with
      | some fault => .error fault
      | none => .ok (recordingOf c (Ticker.ticks machine Ticker.collector configuration.cycles 0
        (configuration.engineAfter machine 0) []).host.reverse) := by
  have loaded := loaded_new graph
  have counted : (ofConfiguration .builtin configuration).1.cycleCount .null =
      .ok configuration.cycles := by
    rw [cycleCount, loaded.made]
  obtain ⟨-, result⟩ := @run_of_count c _ machine loaded.compiled .null _ counted (by omega)
  rw [Int.toNat_natCast] at result
  exact result

theorem run_of_breaks (positive : 0 < configuration.cycles) (breaks : configuration.Breaks machine) :
    ∃ fault, ((ofConfiguration .builtin configuration).1.run machine .null).2.1 = .error fault := by
  obtain ⟨fault, failed⟩ := Option.ne_none_iff_exists'.mp ((breaks_iff graph).mp breaks)
  rw [run_null graph positive, failed]
  exact ⟨fault, rfl⟩

/-- If no block fails, all cycles are complete, and the run gives what they hand out. -/
theorem run_of_unbroken (positive : 0 < configuration.cycles)
    (unbroken : ¬ configuration.Breaks machine) :
    ∃ cycles, cycles.length = configuration.cycles ∧
      Yields machine (configuration.engineAfter machine 0) cycles ∧
      ((ofConfiguration .builtin configuration).1.run machine .null).2.1 =
        .ok (recordingOf c cycles) := by
  have through := not_not.mp (mt (breaks_iff graph).mpr unbroken)
  obtain ⟨cycles, length, yields⟩ := Engine.exists_yields (running_engineAfter graph) through
  refine ⟨cycles, length, yields, ?_⟩
  obtain ⟨-, host⟩ := ticks_of_yields yields 0 []
  rw [length] at host
  rw [run_null graph positive, through, host, List.append_nil, List.reverse_reverse]

/-! ## Sinks that sound -/

theorem join_eq_real_iff (positive : 0 < configuration.cycles) {s : Graph.Node}
    (sink : s ∈ c.plan.sinks) {cycles : List (List SinkOutput)}
    (count : cycles.length = configuration.cycles)
    (yields : Yields machine (configuration.engineAfter machine 0) cycles) {samples : List Float} :
    (∃ g, Signal.join (collected s.id cycles) = .real g ∧ g.cells = samples) ↔
      configuration.Sounds machine s samples := by
  have mem := ((mem_sinks_of_compile graph).mp sink).1
  obtain ⟨form, formed⟩ := exists_form graph mem
  obtain ⟨length, outputs, has⟩ := collected_of_yields graph sink formed
    (reachable_engineAfter graph 0) (plan_engineAfter graph 0) yields
  rw [count] at length outputs
  have outputs' : ∀ k < configuration.cycles,
      (configuration.engineAfter machine (k + 1)).output? s.id = (collected s.id cycles)[k]? :=
    outputs
  constructor
  · rintro ⟨g, joined, rfl⟩
    have some : collected s.id cycles ≠ [] := List.length_pos_iff.mp (by omega)
    obtain ⟨buffers, same⟩ := Signal.exists_map_line has some joined
    rw [same] at joined length outputs'
    rw [Signal.join_map_line] at joined
    cases joined
    refine ⟨buffers, by simpa using length, fun k less => ?_, rfl⟩
    rw [outputs' k less, List.getElem?_map]
  · rintro ⟨buffers, number, sounding, rfl⟩
    -- both lists are as long as there are cycles, so they agree beyond them too
    have same : collected s.id cycles = buffers.map line := by
      refine List.ext_getElem? fun k => ?_
      rw [List.getElem?_map]
      by_cases less : k < configuration.cycles
      · rw [← outputs' k less, sounding k less]
      · rw [List.getElem?_eq_none (by omega), List.getElem?_eq_none (by omega)]
        rfl
    rw [same, Signal.join_map_line]
    exact ⟨_, rfl, rfl⟩

/-- Unless a node computes a Fourier transform, each cycle adds as many samples as a buffer has. -/
theorem length_of_sounds (positive : 0 < configuration.cycles)
    (unbroken : ¬ configuration.Breaks machine)
    (plain : ∀ n ∈ configuration.graph.nodes, ¬ Transforms n) {n : Graph.Node}
    (mem : n ∈ configuration.graph.nodes) {samples : List Float}
    (sounds : configuration.Sounds machine n samples) :
    samples.length = configuration.cycles * configuration.settings.bufferSize := by
  obtain ⟨cycles, count, yields, -⟩ := run_of_unbroken graph positive unbroken
  obtain ⟨buffers, number, sounding, rfl⟩ := sounds
  have each : ∀ b ∈ buffers, b.length = configuration.settings.bufferSize := by
    intro b there
    obtain ⟨k, inside, rfl⟩ := List.mem_iff_getElem.mp there
    have complete := yields.complete (k := k) (by omega)
    have output := sounding k (by omega)
    rw [Configuration.engineAfter_succ, List.getElem?_eq_getElem inside] at output
    rcases cycled : (configuration.engineAfter machine k).cycle machine with ⟨after, result, notices⟩
    rw [cycled] at output
    obtain rfl : result = .ok (some cycles[k]) :=
      (congrArg Outcome.result cycled).symm.trans complete
    have size := length_of_output graph plain mem (reachable_engineAfter graph k)
      (plan_engineAfter graph k) cycled output
    rwa [settings_engineAfter graph k] at size
  rw [List.length_flatten, List.map_congr_left each, List.map_const', List.sum_replicate, number,
    smul_eq_mul]

end Application

end Flowgraph
