import Flowgraph.Catalog.Builtin
import Flowgraph.Configuration.Basic
import Flowgraph.Engine.Ticker

/-!
# Applications

A configuration, the outcome of compiling its graph, and the engine that runs
it.  An application is compiled when it is made; its engine holds a plan
exactly when the graph compiled.
-/

namespace Flowgraph

namespace Signal

def realBuffers? : List Signal → Option (List (List Float))
  | [] => some []
  | .real g :: rest => (realBuffers? rest).map (g.cells :: ·)
  | _ :: _ => none

def pointBuffers? : List Signal → Option (List (List (Point Float)))
  | [] => some []
  | .complex g :: rest => (pointBuffers? rest).map (g.cells :: ·)
  | _ :: _ => none

def framesOf : Signal → List (Frame Float)
  | .frames fs => fs
  | _ => []

/-- One signal from the signals of several cycles, in order of time. -/
def join (signals : List Signal) : Signal :=
  match realBuffers? signals, pointBuffers? signals with
  | some buffers, _ => .real (.line buffers.flatten)
  | none, some buffers => .complex (.line buffers.flatten)
  | none, none => .frames (signals.flatMap framesOf)

end Signal

/-- A configured graph, what came of compiling it, and its engine. -/
structure Application where
  configuration : Configuration
  engine : Engine
  compiled : Except (List Graph.Failure) Graph.Compiled

namespace Application

/-- Compile the configured graph; a fault leaves everything as it was. -/
def compile (app : Application) : Application × Except Fault (List Notice) :=
  let layout := app.configuration.graph
  let result := Graph.compile app.engine.catalog layout.nodes layout.edges
  match result with
  | .ok c =>
    ({ app with engine := app.engine.load c.plan app.configuration.settings, compiled := .ok c },
      .ok (Engine.loadNotices app.engine.catalog c.plan))
  | .error (.failures found) =>
    ({ app with engine := app.engine.reset, compiled := .error found },
      .ok (Graph.compileNotices result ++
        found.map fun f => ⟨.error, s!"{f.code}: {f.message}"⟩))
  | .error (.fault cause) => (app, .error cause)

/-- The application of a configuration over a catalog; it is handed out if it could be compiled. -/
def ofConfiguration (catalog : Catalog) (c : Configuration) :
    Application × Except Fault (List Notice) :=
  compile ⟨c, .new catalog, .error []⟩

def report : List (String × List String) → String → List String →
    List (String × List String)
  | [], id, complaints => [(id, complaints)]
  | (k, old) :: rest, id, complaints =>
    if k = id then (k, complaints) :: rest else (k, old) :: report rest id complaints

/-- What is wrong with the parameters of some nodes, added to what is known. -/
def checkNodes (catalog : Catalog) (known : List (String × List String)) :
    List Graph.Node → Except Fault (List (String × List String))
  | [] => .ok known
  | n :: rest => do
    let complaints ← catalog.checkParams n.blockType n.params
    checkNodes catalog (if complaints.isEmpty then known else report known n.id complaints) rest

/-- What is wrong with the parameters of the nodes; nodes without complaints are left out. -/
def checkParams (app : Application) : Except Fault (List (String × List String)) :=
  checkNodes app.engine.catalog [] app.configuration.graph.nodes

/-- The number of cycles to run: the configured one, or one that a value asks for. -/
def cycleCount (app : Application) : Value → Except Fault Int
  | .null => .ok app.configuration.cycles
  | v => v.toInt

def collected (id : String) (cycles : List (List SinkOutput)) : List Signal :=
  cycles.flatMap fun outputs => (outputs.filter fun o => o.node.id = id).map (·.data)

abbrev Recording := List (String × Signal)

/-- Run some cycles on fresh records and join the outputs of each sink in time order. -/
def run (machine : Machine) (app : Application) (cycles : Value) :
    Application × Except Fault Recording × List Notice :=
  match app.compiled with
  | .error _ => (app, .error .notCompiled, [])
  | .ok c =>
    match app.cycleCount cycles with
    | .error fault => (app, .error fault, [])
    | .ok count =>
      if count ≤ 0 then (app, .error (Value.named .cycleCount (.int count)), [])
      else
        let (engine, _, startNotices) := app.engine.start
        let run := Ticker.run machine Ticker.collector count engine []
        let app := { app with engine := run.engine.stop }
        let notices := startNotices ++ run.notices
        match run.fault with
        | some fault => (app, .error fault, notices)
        | none =>
          let cycles := run.host.reverse
          (app, .ok (c.plan.sinks.map fun n => (n.id, .join (collected n.id cycles))), notices)

def orderLine (catalog : Catalog) (n : Graph.Node) : String :=
  let kind :=
    match catalog.resolve n.blockType with
    | some d => d.name
    | none => "unknown block"
  s!"  - {n.displayName} ({kind})"

def outcomeLines (app : Application) : List String :=
  match app.compiled with
  | .error failures =>
    "Compilation: failed" :: failures.map fun f => s!"  - {f.code}: {f.message}"
  | .ok c =>
    ["Compilation: ok", "Execution order:"] ++
      c.plan.order.map (orderLine app.engine.catalog) ++
      ["Sources: " ++ ", ".intercalate (c.plan.sources.map (·.id)),
        "Sinks: " ++ ", ".intercalate (c.plan.sinks.map (·.id))]

/-- A description of the graph and its plan, if the numbers in it can be written. -/
def summary (app : Application) : Except Fault String := do
  let rate ← Value.toText (.int app.configuration.settings.sampleRate)
  let size ← Value.toText (.int app.configuration.settings.bufferSize)
  let cycles ← Value.toText (.int app.configuration.cycles)
  let settings := [s!"Sample rate: {rate} Hz", s!"Buffer size: {size} samples", s!"Cycles: {cycles}"]
  return "\n".intercalate (settings ++ app.outcomeLines)

end Application

end Flowgraph
