import Flowgraph.Proofs.Application.Joining

/-!
# Runs of an application

A run starts from fresh records, so what earlier runs left has no effect on it,
and a shorter run is the beginning of a longer one: for every sink it gives the
part that the first cycles made.
-/

namespace Flowgraph

namespace Engine

variable {e : Engine}

/-! ## What a run leaves of an engine -/

def Call.OfRun : Call → Prop
  | start | stop | cycle _ => True
  | _ => False

theorem kept_performAll {calls : List Call} (run : ∀ call ∈ calls, call.OfRun) :
    (e.performAll calls).plan = e.plan ∧ (e.performAll calls).settings = e.settings := by
  induction calls generalizing e with
  | nil => exact ⟨rfl, rfl⟩
  | cons call rest ih =>
      obtain ⟨now, later⟩ := List.forall_mem_cons.mp run
      obtain ⟨plan, settings⟩ := ih (e := e.perform call) later
      have once : (e.perform call).plan = e.plan ∧ (e.perform call).settings = e.settings := by
        cases call with
        | start =>
            rw [perform_start]
            split <;> exact ⟨rfl, rfl⟩
        | stop => exact ⟨rfl, rfl⟩
        | cycle machine => exact ⟨(samePlan_cycle machine e).plan, settings_cycle machine e⟩
        | _ => exact now.elim
      exact ⟨plan.trans once.1, settings.trans once.2⟩

end Engine

/-! ## Runs -/

namespace Application

open Engine

variable {configuration : Configuration} {c : Graph.Compiled} {app app' : Application}
  {machine : Machine}

/-- The applications that come of a configuration by runs, which may have failed. -/
inductive Reached (configuration : Configuration) : Application → Prop where
  | new : Reached configuration (ofConfiguration .builtin configuration).1
  | run {app : Application} (machine : Machine) (cycles : Value) :
      Reached configuration app → Reached configuration (app.run machine cycles).1

def recordingOf (c : Graph.Compiled) (cycles : List (List SinkOutput)) : Recording :=
  c.plan.sinks.map fun s => (s.id, .join (collected s.id cycles))

theorem lookup_recordingOf {s : Graph.Node} (sink : s ∈ c.plan.sinks)
    (cycles : List (List SinkOutput)) :
    (recordingOf c cycles).lookup s.id = some (.join (collected s.id cycles)) := by
  have table := Graph.lookup_tabulated (fun n : Graph.Node => n.id)
    (fun id => Signal.join (collected id cycles)) c.plan.sinks s.id
  rw [if_pos (List.mem_map_of_mem sink)] at table
  exact table

theorem keys_recordingOf (c : Graph.Compiled) (cycles : List (List SinkOutput)) :
    (recordingOf c cycles).map (·.1) = c.plan.sinks.map (·.id) := by
  simp [recordingOf, Function.comp_def]

theorem run_of_count (compiled : app.compiled = .ok c) {cycles : Value} {count : Int}
    (counted : app.cycleCount cycles = .ok count) (positive : 0 < count) :
    let ticked := Ticker.ticks machine Ticker.collector count.toNat 0 (app.engine.perform .start) []
    (app.run machine cycles).1 = { app with engine := ticked.engine.stop } ∧
      (app.run machine cycles).2.1 =
        match ticked.fault with
        | some fault => .error fault
        | none => .ok (recordingOf c ticked.host.reverse) := by
  intro ticked
  have same : Ticker.run machine Ticker.collector count app.engine.start.1 [] = ticked := rfl
  have some : ¬ count ≤ 0 := by omega
  simp only [Application.run, compiled, counted, if_neg some, same]
  cases ticked.fault <;> exact ⟨rfl, rfl⟩

def runCalls (machine : Machine) (k : ℕ) : List Call :=
  .start :: List.replicate k (.cycle machine) ++ [.stop]

theorem ofRun_runCalls (machine : Machine) (k : ℕ) : ∀ call ∈ runCalls machine k, call.OfRun := by
  intro call mem
  simp only [runCalls, List.cons_append, List.mem_cons, List.mem_append, List.mem_replicate,
    List.not_mem_nil, or_false] at mem
  rcases mem with rfl | ⟨-, rfl⟩ | rfl <;> trivial

theorem exists_runCalls (compiled : app.compiled = .ok c) {cycles : Value} {count : Int}
    (counted : app.cycleCount cycles = .ok count) (positive : 0 < count) :
    ∃ k, (app.run machine cycles).1 =
      { app with engine := app.engine.performAll (runCalls machine k) } := by
  obtain ⟨k, ticked⟩ :=
    exists_performAll_ticks machine count.toNat 0 (app.engine.perform .start) []
  obtain ⟨after, -⟩ := @run_of_count c app machine compiled cycles count counted positive
  rw [ticked] at after
  refine ⟨k, after.trans ?_⟩
  rw [runCalls, performAll_concat, performAll_cons]
  rfl

/-- A run does nothing to an application but make its engine start, run cycles and stop. -/
theorem run_cases (app : Application) (machine : Machine) (cycles : Value) :
    (app.run machine cycles).1 = app ∨
      ∃ k, (app.run machine cycles).1 =
        { app with engine := app.engine.performAll (runCalls machine k) } := by
  cases compiled : app.compiled with
  | error failures => exact .inl (by simp only [Application.run, compiled])
  | ok c =>
      cases counted : app.cycleCount cycles with
      | error fault => exact .inl (by simp only [Application.run, compiled, counted])
      | ok count =>
          by_cases positive : 0 < count
          · rw [← compiled]
            exact .inr (exists_runCalls compiled counted positive)
          · have none : count ≤ 0 := by omega
            exact .inl (by simp only [Application.run, compiled, counted, if_pos none])

/-- An application of a configuration whose engine holds the plan of the graph. -/
structure Loaded (configuration : Configuration) (c : Graph.Compiled) (app : Application) :
    Prop where
  made : app.configuration = configuration
  graph : Graph.compile .builtin configuration.graph.nodes configuration.graph.edges = .ok c
  compiled : app.compiled = .ok c
  reachable : Reachable .builtin app.engine
  plan : app.engine.plan = some c.plan
  settings : app.engine.settings = configuration.settings

theorem ofConfiguration_of_ok
    (graph : Graph.compile .builtin configuration.graph.nodes configuration.graph.edges = .ok c) :
    (ofConfiguration .builtin configuration).1 =
      ⟨configuration, (Engine.new .builtin).load c.plan configuration.settings, .ok c⟩ := by
  have compiled : Graph.compile (Engine.new .builtin).catalog configuration.graph.nodes
      configuration.graph.edges = .ok c := graph
  simp only [ofConfiguration, Application.compile, compiled]

theorem ofConfiguration_of_error {failures : List Graph.Failure}
    (graph : Graph.compile .builtin configuration.graph.nodes configuration.graph.edges =
      .error (.failures failures)) :
    (ofConfiguration .builtin configuration).1.compiled = .error failures := by
  have failed : Graph.compile (Engine.new .builtin).catalog configuration.graph.nodes
      configuration.graph.edges = .error (.failures failures) := graph
  simp only [ofConfiguration, Application.compile, failed]

theorem loaded_new
    (graph : Graph.compile .builtin configuration.graph.nodes configuration.graph.edges = .ok c) :
    Loaded configuration c (ofConfiguration .builtin configuration).1 := by
  have reachable : Reachable .builtin
      ((Engine.new .builtin).perform (.prepare c.plan (.replace configuration.settings))) :=
    .call _ .new
  rw [ofConfiguration_of_ok graph]
  exact ⟨rfl, graph, rfl, reachable, rfl, rfl⟩

theorem Loaded.run (loaded : Loaded configuration c app) (machine : Machine) (cycles : Value) :
    Loaded configuration c (app.run machine cycles).1 := by
  rcases run_cases app machine cycles with same | ⟨k, after⟩
  · rw [same]
    exact loaded
  · obtain ⟨plan, settings⟩ := kept_performAll (ofRun_runCalls machine k) (e := app.engine)
    rw [after]
    exact ⟨loaded.made, loaded.graph, loaded.compiled,
      reachable_performAll loaded.reachable _, plan.trans loaded.plan,
      settings.trans loaded.settings⟩

theorem Reached.compiled_iff (reached : app.Reached configuration) : app.compiled = .ok c ↔
    Graph.compile .builtin configuration.graph.nodes configuration.graph.edges = .ok c := by
  induction reached with
  | new =>
      have same : (Engine.new .builtin).catalog = .builtin := rfl
      simp only [ofConfiguration, Application.compile, same]
      rcases Graph.compile .builtin configuration.graph.nodes configuration.graph.edges with
        (failures | fault) | compiled <;> simp
  | run machine cycles _ ih =>
      rename_i app _
      rcases run_cases app machine cycles with same | ⟨k, after⟩
      · rw [same]
        exact ih
      · rw [after]
        exact ih

theorem Reached.loaded (reached : app.Reached configuration) (compiled : app.compiled = .ok c) :
    Loaded configuration c app := by
  have graph := reached.compiled_iff.mp compiled
  clear compiled
  induction reached with
  | new => exact loaded_new graph
  | run machine cycles _ ih => exact ih.run machine cycles

theorem Loaded.start_running (loaded : Loaded configuration c app) :
    Running .builtin c.plan (app.engine.perform .start) :=
  running_perform_start loaded.reachable.consistent loaded.plan

/-- A run returns if the cycles that it asks for are complete, and gives what they hand out. -/
theorem Loaded.run_of_yields (loaded : Loaded configuration c app)
    {cycles : List (List SinkOutput)} (some : cycles ≠ [])
    (yields : Yields machine (app.engine.perform .start) cycles) :
    (app.run machine (.int cycles.length)).2.1 = .ok (recordingOf c cycles) := by
  have positive : 0 < (cycles.length : Int) := by
    have := List.length_pos_iff.mpr some
    omega
  obtain ⟨-, result⟩ :=
    @run_of_count c app machine loaded.compiled (.int cycles.length) _ rfl positive
  obtain ⟨through, host⟩ := ticks_of_yields yields 0 []
  rw [result, Int.toNat_natCast, through, host, List.append_nil, List.reverse_reverse]

/-- A run that returns gives what the cycles hand out that it asks for, all of them complete. -/
theorem Loaded.exists_yields (loaded : Loaded configuration c app) {k : ℕ} (positive : 0 < k)
    {whole : Recording} (returned : (app.run machine (.int k)).2.1 = .ok whole) :
    ∃ cycles, cycles.length = k ∧ Yields machine (app.engine.perform .start) cycles ∧
      whole = recordingOf c cycles := by
  obtain ⟨-, result⟩ := @run_of_count c app machine loaded.compiled (.int k) k rfl (by omega)
  rw [Int.toNat_natCast] at result
  cases through :
    (Ticker.ticks machine Ticker.collector k 0 (app.engine.perform .start) []).fault with
  | some fault =>
      rw [result, through] at returned
      cases returned
  | none =>
      obtain ⟨cycles, rfl, yields⟩ := Engine.exists_yields loaded.start_running through
      have some : cycles ≠ [] := List.length_pos_iff.mp positive
      rw [loaded.run_of_yields some yields] at returned
      cases returned
      exact ⟨cycles, rfl, yields, rfl⟩

/-- Runs of applications of one configuration start from engines that are alike. -/
theorem Loaded.alike (loaded : Loaded configuration c app) (loaded' : Loaded configuration c app') :
    Alike (app.engine.perform .start) (app'.engine.perform .start) :=
  alike_starts loaded.reachable.consistent loaded'.reachable.consistent loaded.plan loaded'.plan
    (loaded'.settings.trans loaded.settings.symm)

/--
Whatever runs there have been before: if a run of some cycles returns, it
returns the same again, and so does a run of fewer cycles.  Both name the sinks
of the plan in order.  What they give for a sink is joined from the outputs of
its node in the cycles from the start on, and that of the shorter run is the
beginning of the other that the first cycles make.
-/
theorem run_prefix (reached : app.Reached configuration) (compiled : app.compiled = .ok c)
    {n m : ℕ} (positive : 1 ≤ n) {whole : Recording}
    (returned : (app.run machine (.int (n + m : ℕ))).2.1 = .ok whole) :
    ∃ part : Recording,
      (∀ app' : Application, app'.Reached configuration →
        (app'.run machine (.int (n + m : ℕ))).2.1 = .ok whole ∧
          (app'.run machine (.int n)).2.1 = .ok part) ∧
      whole.map (·.1) = c.plan.sinks.map (·.id) ∧ part.map (·.1) = c.plan.sinks.map (·.id) ∧
      ∀ s ∈ c.plan.sinks, ∃ (pieces : List Signal) (all first : Signal),
        pieces.length = n + m ∧
        (∀ k < n + m,
          (app.engine.performAll (.start :: List.replicate (k + 1) (.cycle machine))).output? s.id =
            pieces[k]?) ∧
        whole.lookup s.id = some all ∧ part.lookup s.id = some first ∧
        Signal.Joined pieces all ∧ Signal.Joined (pieces.take n) first ∧ first.Initial all := by
  have loaded := reached.loaded compiled
  obtain ⟨cycles, length, yields, rfl⟩ := loaded.exists_yields (by omega) returned
  have begun : (cycles.take n).length = n := by
    rw [List.length_take]
    omega
  refine ⟨recordingOf c (cycles.take n), ?_, keys_recordingOf c _, keys_recordingOf c _, ?_⟩
  · intro app' reached'
    have compiled' : app'.compiled = .ok c :=
      reached'.compiled_iff.mpr (reached.compiled_iff.mp compiled)
    have loaded' := reached'.loaded compiled'
    have yields' := (loaded.alike loaded').yields yields
    have long := @loaded'.run_of_yields _ _ _ machine cycles
      (List.length_pos_iff.mp (by omega)) yields'
    have short := @loaded'.run_of_yields _ _ _ machine (cycles.take n)
      (List.length_pos_iff.mp (by omega)) (yields'.take n)
    rw [length] at long
    rw [begun] at short
    exact ⟨long, short⟩
  · intro s sink
    have running := loaded.start_running
    have started : Reachable .builtin (app.engine.perform .start) := loaded.reachable.call .start
    have mem := ((mem_sinks_of_compile loaded.graph).mp sink).1
    obtain ⟨form, formed⟩ := exists_form loaded.graph mem
    obtain ⟨count, outputs, has⟩ :=
      collected_of_yields loaded.graph sink formed started running.loaded yields
    obtain ⟨fewer, -⟩ :=
      collected_of_yields loaded.graph sink formed started running.loaded (yields.take n)
    have split : (collected s.id cycles).take n = collected s.id (cycles.take n) := by
      conv_lhs => rw [← List.take_append_drop n cycles]
      rw [collected, List.flatMap_append]
      exact List.take_left' (fewer.trans begun)
    have some : collected s.id cycles ≠ [] := List.length_pos_iff.mp (by omega)
    obtain ⟨joined, initial, begins⟩ := Signal.joined_take has positive some
    rw [length] at outputs count
    rw [split] at initial begins
    exact ⟨collected s.id cycles, _, _, count, outputs, lookup_recordingOf sink cycles,
      lookup_recordingOf sink _, joined, split ▸ initial, begins⟩

def hummed : Configuration :=
  ⟨sized 2 Nat.two_pos, ⟨hum.1, hum.2, none⟩, 1⟩

theorem run_prefix_hummed :
    ∃ (c : Graph.Compiled) (whole part : Recording),
      (ofConfiguration .builtin hummed).1.compiled = .ok c ∧
      (((ofConfiguration .builtin hummed).1.run .bare (.int 2)).1.run
        .bare (.int 2)).2.1 = .ok whole ∧
      ((ofConfiguration .builtin hummed).1.run .bare (.int 1)).2.1 = .ok part ∧
      part.map (·.1) = ["view"] ∧
      ∃ all first, whole.lookup "view" = some all ∧ part.lookup "view" = some first ∧
        first.Initial all := by
  have reached : (ofConfiguration .builtin hummed).1.Reached hummed := .new
  have compiled := reached.compiled_iff.mpr compile_hum
  have ends : ((ofConfiguration .builtin hummed).1.run .bare
      (.int ((1 + 1 : ℕ)))).2.1.toOption.isSome := by
    rw [@ofConfiguration_of_ok hummed _ compile_hum]
    rfl
  cases returned : ((ofConfiguration .builtin hummed).1.run .bare
      (.int ((1 + 1 : ℕ)))).2.1 with
  | error fault =>
      rw [returned] at ends
      cases ends
  | ok whole =>
      obtain ⟨part, again, -, keys, sinks⟩ := run_prefix reached compiled le_rfl returned
      have sink : ⟨"view", "CONSTELLATION", [], none⟩ ∈
          (Graph.exactPlan hum.2 hum.1.reverse).sinks :=
        (mem_sinks_of_compile compile_hum).mpr ⟨by simp [hum], by rfl⟩
      obtain ⟨pieces, all, first, -, -, long, short, -, -, initial⟩ := sinks _ sink
      exact ⟨_, whole, part, compiled, (again _ (reached.run _ _)).1, (again _ reached).2, keys,
        all, first, long, short, initial⟩

end Application

end Flowgraph
