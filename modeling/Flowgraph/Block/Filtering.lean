import Flowgraph.Block.Transfer
import Flowgraph.Filter.Design
import Flowgraph.Goertzel

/-!
# Filter blocks
-/

namespace Flowgraph

namespace Block

/-- Send a buffer through a filter with the design of a key, made if it is not the current one. -/
def streamed (key : Filter.DesignKey) (design : Unit → Except Fault (List Float))
    (buffer : Grid Float) (s : StreamFilter) : StreamFilter × Except Fault (List Float) :=
  match s.prepare key design with
  | (s, .error fault) => (s, .error fault)
  | (s, .ok ()) =>
    match buffer.line? with
    | .error fault => (s, .error fault)
    | .ok samples =>
      let (s, output) := s.feed samples
      (s, .ok output)

def firKey (kind : String) (order : Int) (cutoff : Float) (rate : Key) : Filter.DesignKey :=
  [.text kind, .int order, .float cutoff, rate]

def firStep (memory : Memory) (kind : String) (order : Int) (cutoff : Float) (rate : Key)
    (buffer : Grid Float) : StreamFilter → StreamFilter × Except Fault (List Float) :=
  streamed (firKey kind order cutoff rate)
    (fun () => Filter.design memory (.int order) (.float cutoff) (.ofKey rate) (.text kind)) buffer

def filterRecord? : Record → Option StreamFilter
  | .filter s => some s
  | _ => none

def kindOf (fixedKind : Option String) (params : Params) : Except Fault String :=
  match fixedKind with
  | some kind => .ok kind
  | none => (params.getD "filterType" (.text "lowpass")).toText

def firRequest (fixedKind : Option String) (ctx : Context) (input : Signal) :
    Except Fault (StreamFilter → StreamFilter × Except Fault (List Float)) := do
  let order ← (ctx.params.getD "order" (.int 64)).toInt
  let cutoff ← (ctx.params.getD "cutoff" (.float 1000)).toFloat
  let kind ← kindOf fixedKind ctx.params
  let buffer ← realGrid input
  let rate ← ctx.rate.toKey
  return firStep ctx.machine.memory kind order cutoff rate buffer

/-- Lowpass and highpass filters, of a fixed kind or of the kind its parameters name. -/
def fir (fixedKind : Option String) : Transfer := fun ctx record =>
  match ctx.first with
  | none => (record, ctx.silence)
  | some input =>
    match firRequest fixedKind ctx input with
    | .error fault => (record, .error fault)
    | .ok step =>
      let (record, result) := onRecord filterRecord? .filter "key" record step
      (record, result.map line)

/-- Send a buffer through two lowpass filters; the output is their difference. -/
def bandpassStep (memory : Memory) (order : Int) (low high : Float) (rate : Key)
    (buffer : Grid Float) (filters : StreamFilter × StreamFilter) :
    (StreamFilter × StreamFilter) × Except Fault (List Float) :=
  match firStep memory "lowpass" order high rate buffer filters.1 with
  | (upper, .error fault) => ((upper, filters.2), .error fault)
  | (upper, .ok above) =>
    match firStep memory "lowpass" order low rate buffer filters.2 with
    | (lower, .error fault) => ((upper, lower), .error fault)
    | (lower, .ok below) => ((upper, lower), .ok (above.zipWith (· - ·) below))

def bandpassRecord? : Record → Option (StreamFilter × StreamFilter)
  | .bandpass upper lower => some (upper, lower)
  | _ => none

def bandpassRequest (ctx : Context) (input : Signal) :
    Except Fault (StreamFilter × StreamFilter →
      (StreamFilter × StreamFilter) × Except Fault (List Float)) := do
  let buffer ← realGrid input
  let order ← (ctx.params.getD "order" (.int 64)).toInt
  let low ← (ctx.params.getD "lowCutoff" (.float 1000)).toFloat
  let high ← (ctx.params.getD "highCutoff" (.float 3000)).toFloat
  let rate ← ctx.rate.toKey
  return bandpassStep ctx.machine.memory order low high rate buffer

def bandpass : Transfer := fun ctx record =>
  match ctx.first with
  | none => (record, ctx.silence)
  | some input =>
    match bandpassRequest ctx input with
    | .error fault => (record, .error fault)
    | .ok step =>
      let (record, result) :=
        onRecord bandpassRecord? (fun s => .bandpass s.1 s.2) "upper" record step
      (record, result.map line)

/-- Pair a buffer with its image under the quadrature filter. -/
def transformerStep (memory : Memory) (order : Int) (buffer : Grid Float) (s : StreamFilter) :
    StreamFilter × Except Fault (List (Point Float)) :=
  let (s, result) := streamed [.text "hilbert", .int order]
    (fun () => Filter.designQuadrature memory (.int order)) buffer s
  (s, result.map (Point.zip buffer.cells))

def transformerRequest (ctx : Context) (input : Signal) :
    Except Fault (StreamFilter → StreamFilter × Except Fault (List (Point Float))) := do
  let buffer ← realGrid input
  let order ← (ctx.params.getD "order" (.int 64)).toInt
  return transformerStep ctx.machine.memory order buffer

def transformer : Transfer := fun ctx record =>
  match ctx.first with
  | none => (record, Signal.origin ctx.machine.memory ctx.size)
  | some input =>
    match transformerRequest ctx input with
    | .error fault => (record, .error fault)
    | .ok step =>
      let (record, result) := onRecord filterRecord? .filter "key" record step
      (record, result.map pointLine)

def goertzel : Transfer := stateless fun ctx =>
  match ctx.first with
  | none => ctx.silence
  | some input => do
    let frequency ← (ctx.params.getD "targetFrequency" (.float 1000)).toFloat
    let size ← (ctx.params.getD "N" (.int 256)).toInt
    let buffer ← realGrid input
    let output ← Goertzel.run buffer (.float frequency) ctx.rate (.int size)
    return line output

end Block

end Flowgraph
