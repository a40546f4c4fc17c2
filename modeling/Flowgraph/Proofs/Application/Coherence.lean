import Flowgraph.Proofs.Application.Repeating
import Flowgraph.Proofs.Value.Misfit

/-!
# Applications whose graph is replaced

Whatever becomes of the graph of an application, its engine goes by the last
time that a graph was compiled: it holds the plan that came of that, or no plan
if that failed, and a run only gets to the engine if it holds one.
-/

namespace Flowgraph

namespace Application

open Engine

/-! ## Histories -/

/-- What is done with an application. -/
inductive Act where
  | replace (layout : Layout)
  | compile
  | run (machine : Machine) (cycles : Value)
  | summary

def act (app : Application) : Act → Application
  | .replace layout => { app with configuration := { app.configuration with graph := layout } }
  | .compile => app.compile.1
  | .run machine cycles => (app.run machine cycles).1
  | .summary => app

/-- What is known of a graph after a compilation: one that raises changes nothing. -/
def settled (last : Except (List Graph.Failure) Graph.Compiled) :
    Except Graph.Refusal Graph.Compiled → Except (List Graph.Failure) Graph.Compiled
  | .ok c => .ok c
  | .error (.failures failures) => .error failures
  | .error (.fault _) => last

variable {catalog : Catalog} {configuration : Configuration} {app : Application} {machine : Machine}
  {cycles : Value}

/-- An application whose engine goes by what came of the last compilation. -/
structure Coherent (catalog : Catalog) (last : Except (List Graph.Failure) Graph.Compiled)
    (app : Application) : Prop where
  reachable : Reachable catalog app.engine
  compiled : app.compiled = last
  plan : app.engine.plan = last.toOption.map Graph.Compiled.plan
  resting : app.engine.status ≠ .running

variable {last : Except (List Graph.Failure) Graph.Compiled}

theorem resting_stop (e : Engine) : e.stop.status ≠ .running := by
  unfold stop
  cases e.plan <;> nofun

theorem compile_of_ok {c : Graph.Compiled}
    (graph : Graph.compile app.engine.catalog app.configuration.graph.nodes
      app.configuration.graph.edges = .ok c) :
    app.compile.1 =
      { app with
        engine := app.engine.perform (.prepare c.plan (.replace app.configuration.settings))
        compiled := .ok c } := by
  simp only [Application.compile, graph]
  rfl

theorem compile_of_error {failures : List Graph.Failure}
    (graph : Graph.compile app.engine.catalog app.configuration.graph.nodes
      app.configuration.graph.edges = .error (.failures failures)) :
    app.compile.1 =
      { app with engine := app.engine.perform .reset, compiled := .error failures } := by
  simp only [Application.compile, graph]
  rfl

theorem compile_of_fault {cause : Fault}
    (graph : Graph.compile app.engine.catalog app.configuration.graph.nodes
      app.configuration.graph.edges = .error (.fault cause)) : app.compile.1 = app := by
  simp only [Application.compile, graph]

theorem configuration_run (app : Application) (machine : Machine) (cycles : Value) :
    (app.run machine cycles).1.configuration = app.configuration := by
  rcases run_cases app machine cycles with same | ⟨k, after⟩
  · rw [same]
  · rw [after]

/-- After compiling the engine goes by what came of it, or of the compilation before. -/
theorem Coherent.compile (coherent : Coherent catalog last app) :
    Coherent catalog
      (settled last
        (Graph.compile catalog app.configuration.graph.nodes app.configuration.graph.edges))
      app.compile.1 := by
  have reachable := coherent.reachable
  obtain rfl := reachable.consistent.catalog_eq
  rcases graph : Graph.compile app.engine.catalog app.configuration.graph.nodes
    app.configuration.graph.edges with (failures | cause) | c
  · have dropped := reachable.call .reset
    rw [compile_of_error graph]
    exact ⟨dropped, rfl, rfl, nofun⟩
  · rw [compile_of_fault graph]
    exact coherent
  · have loaded := reachable.call (.prepare c.plan (.replace app.configuration.settings))
    rw [compile_of_ok graph]
    exact ⟨loaded, rfl, rfl, nofun⟩

/-- A run, however it ends, leaves the engine with its plan and not running. -/
theorem Coherent.run (coherent : Coherent catalog last app) (machine : Machine) (cycles : Value) :
    Coherent catalog last (app.run machine cycles).1 := by
  rcases run_cases app machine cycles with same | ⟨k, after⟩
  · rw [same]
    exact coherent
  · obtain ⟨plan, -⟩ := kept_performAll (ofRun_runCalls machine k) (e := app.engine)
    rw [after]
    refine ⟨reachable_performAll coherent.reachable _, coherent.compiled,
      plan.trans coherent.plan, ?_⟩
    rw [runCalls, performAll_concat]
    exact resting_stop _

theorem Coherent.idle_iff (coherent : Coherent catalog last app) :
    app.engine.status = .idle ↔ ∃ failures, last = .error failures := by
  obtain ⟨sizes, lifecycle⟩ := coherent.reachable.exists_lifecycle
  rw [lifecycle.idle_iff, coherent.plan]
  cases last with
  | ok c => exact iff_of_false nofun nofun
  | error failures => exact iff_of_true rfl ⟨failures, rfl⟩

end Application

end Flowgraph
