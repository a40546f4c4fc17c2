import Flowgraph.Configuration.Records
import Flowgraph.Engine.Settings
import Flowgraph.Files
import Flowgraph.Json.Reader
import Flowgraph.Json.Writer

/-!
# Configurations

Everything a run needs: the settings of the engine, the graph and the number of
cycles.  A configuration is stored as a JSON document.
-/

namespace Flowgraph

structure Configuration where
  settings : Settings
  graph : Layout
  cycles : Nat

namespace Configuration

def defaultCycles : Int := 8

/-- The settings of a document, which may stand under `engine`. -/
def readSettings (raw : Params) : Except Fault Settings :=
  match raw.get "engine" with
  | .object engine => Settings.standard.overlay engine
  | _ => Settings.standard.overlay raw

def ofValue (raw : Value) : Except Fault Configuration := do
  let entries ← raw.toParams
  let settings ← readSettings entries
  let raw ← raw.asObject
  let graph ← Layout.ofRecords ((raw.get "graph").orElse (.object []))
  if graph.nodes.isEmpty then throw .noNodes
  let cycles ← (raw.getD "cycles" (.int defaultCycles)).toInt
  if cycles ≤ 0 then throw .cyclesNotPositive
  return ⟨settings, graph, cycles.toNat⟩

def ofText (text : String) : Except Fault Configuration := do
  let raw ← Json.parse text
  ofValue raw

def load (files : Files) (path : String) : Except Fault Configuration := do
  let text ← files.readText path
  ofText text

def toValue (c : Configuration) : Value :=
  .object [
    ("sample_rate", .int c.settings.sampleRate),
    ("buffer_size", .int c.settings.bufferSize),
    ("cycles", .int c.cycles),
    ("graph", c.graph.toRecords)]

def toText (c : Configuration) : String :=
  Json.pretty 0 c.toValue

/-- The configuration of a program that is given none: a tone through a lowpass filter. -/
def standard : Configuration where
  settings := .standard
  graph := {
    nodes := [
      ⟨"sine", "SINE_GEN",
        [("frequency", .int 1000), ("amplitude", .float 1.0), ("phase", .int 0)], some "Sine"⟩,
      ⟨"lowpass", "LOWPASS_FIR", [("order", .int 64), ("cutoff", .int 500)], some "FIR Lowpass"⟩,
      ⟨"scope", "OSCILLOSCOPE", [], some "Oscilloscope"⟩]
    edges := [
      ⟨"e1", "sine", "lowpass", some "out", some "in"⟩,
      ⟨"e2", "lowpass", "scope", some "out", some "in"⟩]
    viewport := some [("x", .int 0), ("y", .int 0), ("zoom", .int 1)] }
  cycles := 8

end Configuration

end Flowgraph
