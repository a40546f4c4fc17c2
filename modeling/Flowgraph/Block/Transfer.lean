import Flowgraph.Audio.Playback
import Flowgraph.Filter.Key
import Flowgraph.Filter.Stream
import Flowgraph.Machine
import Flowgraph.Signal

/-!
# Processing one buffer

A block computes one buffer from the buffers at its inputs, its parameters and
the record it kept from the previous buffer.  It hands back the record in any
case, also when it fails after having changed it.
-/

namespace Flowgraph

namespace Block

abbrev StreamFilter := Filter.Stream Filter.DesignKey Float

/-- What a node keeps from one cycle to the next. -/
inductive Record where
  | oscillator (phase : Option Float)
  | filter (stream : StreamFilter)
  | bandpass (upper lower : StreamFilter)
  | integrator (accumulator : Float)
  | playback (position : Audio.Playback)
  | phaseReference (phase : Float)
deriving Repr

structure Context where
  inputs : List (Option Signal)
  params : Params
  rate : Value
  size : Value
  machine : Machine

/-- A function from inputs and record to record and output; there may be no record at all. -/
abbrev Transfer := Context → Option Record → Option Record × Except Fault Signal

def line (samples : List Float) : Signal :=
  .real (.line samples)

def pointLine (points : List (Point Float)) : Signal :=
  .complex (.line points)

/-- A signal as real samples; a signal of another kind is refused. -/
def realGrid : Signal → Except Fault (Grid Float)
  | .real g => .ok g
  | .complex _ => .error (.notReal "ComplexSignal")
  | .frames [] => .ok (.line [])
  | .frames _ => .error (.notReal "SpectrumFrame")

namespace Context

def first (ctx : Context) : Option Signal :=
  ctx.inputs.head?.join

def silence (ctx : Context) : Except Fault Signal :=
  Signal.silence ctx.machine.memory ctx.size

def realInputs (ctx : Context) : Except Fault (List (Grid Float)) :=
  (ctx.inputs.filterMap id).mapM realGrid

end Context

def stateless (run : Context → Except Fault Signal) : Transfer := fun ctx record =>
  (record, run ctx)

/--
Run a step on the record of a node.  `wanted` is what the step looks for
first, and misses if the node has no such record.
-/
def onRecord {σ β : Type} (get? : Record → Option σ) (put : σ → Record) (wanted : String)
    (record : Option Record) (step : σ → σ × Except Fault β) :
    Option Record × Except Fault β :=
  match record.bind get? with
  | none => (record, .error (.noAttribute "NoneType" wanted))
  | some s =>
    let (s, result) := step s
    (some (put s), result)

/-- The process of a node whose block type is unknown: its first input, or silence. -/
def passFirst : Transfer := stateless fun ctx =>
  match ctx.first with
  | some signal => .ok signal
  | none => ctx.silence

end Block

end Flowgraph
