import Flowgraph.Detector
import Flowgraph.Filter.Convolution
import Flowgraph.Filter.Design
import Flowgraph.Filter.Key
import Flowgraph.Filter.Stream
import Flowgraph.Goertzel
import Flowgraph.Integrator
import Flowgraph.Mixing
import Flowgraph.Spectrum.Sliding

/-!
# Kernels on plain values

The kernels for callers that hold parameters and buffers as plain values.
Arguments are read in a fixed order, and the first that cannot be read decides
the fault.
-/

namespace Flowgraph

/-- A buffer argument: a plain value or points. -/
inductive Operand where
  | value (v : Value)
  | points (g : Grid (Point Float))

namespace Operand

def grid : Operand → Except Fault (Grid Float)
  | value v => Grid.ofValue v
  | points _ => .error (.notReal "ComplexSignal")

def samples (o : Operand) : Except Fault (List Float) := do
  let g ← o.grid
  g.line?

/-- Points; a number is a point on the real axis. -/
def pointGrid (o : Operand) : Except Fault (Grid (Point Float)) :=
  match o with
  | points g => .ok g
  | value v =>
    match v.number? with
    | some n => n.toFloat.map fun x => .point ⟨x, 0⟩
    | none => .error (.noAttribute v.kind "real")

def length : Operand → Except Fault Nat
  | points g => g.length?
  | value (.list items) => .ok items.length
  | value (.text s) => .ok (Text.characters s).length
  | value (.object entries) => .ok entries.length
  | value v => .error (.noLength v.kind)

end Operand

namespace Kernel

def planes (re im : Value) : Except Fault (Grid (Point Float)) := do
  let re ← Grid.ofValue re
  let im ← Grid.ofValue im
  Point.planes? re im

/-- A filter with given taps; past samples only count where taps reach them. -/
def filterSamples (samples taps : List Float) (history : Option Operand) :
    Except Fault (List Float) := do
  if samples.isEmpty || taps.length ≤ 1 then return Filter.apply taps [] samples
  match history with
  | none => return Filter.apply taps [] samples
  | some past =>
    let past ← past.samples
    return Filter.apply taps past samples

def filter (buffer taps : Operand) (history : Option Operand) : Except Fault (List Float) := do
  let samples ← buffer.samples
  let taps ← taps.samples
  filterSamples samples taps history

/-- A filter that keeps its taps, in the shape they were given in, and past samples. -/
structure Kept where
  key : Option Filter.DesignKey
  taps : Grid Float
  past : Filter.History Float

namespace Kept

def fresh : Kept := ⟨none, .line [], .zeros 0⟩

def designedFor (s : Kept) (key : Filter.DesignKey) : Bool :=
  match s.key with
  | some current => current == key
  | none => false

/--
Take over taps for a new key.  The key stays also when the taps cannot be read,
and the taps stay also when they have no axis to count them along.
-/
def configure (s : Kept) (key : Filter.DesignKey) (taps : Operand) : Kept × Except Fault Unit :=
  if s.designedFor key then (s, .ok ())
  else
    match taps.grid with
    | .error fault => ({ s with key := some key }, .error fault)
    | .ok taps =>
      match taps.length? with
      | .error fault => (⟨some key, taps, s.past⟩, .error fault)
      | .ok n => (⟨some key, taps, .zeros (n - 1)⟩, .ok ())

/--
Remember a buffer; a filter that remembers nothing does not look at it.  Axes of
length one behind the first are dropped as long as a single sample is stored.
-/
def push (s : Kept) (buffer : Operand) : Except Fault Kept := do
  let capacity := s.past.slots.length
  if capacity = 0 then return s
  let g ← buffer.grid
  match g.shape with
  | [] => throw .noAxis
  | [_] => return { s with past := s.past.push g.cells }
  | n :: more =>
    if (n = 1 ∨ capacity = 1) ∧ more.all (· = 1) then
      return { s with past := s.past.push g.cells }
    else throw (.shapesDiffer g.shape [capacity])

/-- Filter a buffer behind the samples that are remembered. -/
def continuation (s : Kept) (buffer : Operand) : Except Fault (List Float) := do
  let samples ← buffer.samples
  let taps ← s.taps.line?
  return Filter.apply taps s.past.ordered samples

end Kept

def bandpass (memory : Memory) (buffer : Operand) (order low high rate : Value) :
    Except Fault (List Float) := do
  let upper ← Filter.design memory order high rate (.text "lowpass")
  let samples ← buffer.samples
  let lower ← Filter.design memory order low rate (.text "lowpass")
  return (Filter.apply upper [] samples).zipWith (· - ·) (Filter.apply lower [] samples)

def quadrature (memory : Memory) (buffer : Operand) (order : Value) (history : Option Operand) :
    Except Fault (List (Point Float)) := do
  let samples ← buffer.samples
  let taps ← Filter.designQuadrature memory order
  let image ← filterSamples samples taps history
  return Point.zip samples image

def transform (memory : Memory) (buffer : Operand) (size : Value) :
    Except Fault (List (Point Float)) := do
  let samples ← buffer.samples
  Spectrum.transform memory samples size

def magnitudes (signal : Operand) : Except Fault (Grid Float) := do
  let points ← signal.pointGrid
  return points.map Spectrum.magnitude

def decibels (values : Operand) (reference : Value) : Except Fault (Grid Float) := do
  let values ← values.grid
  let reference ← reference.toFloat
  return values.map (Spectrum.decibels reference)

def spectrum (memory : Memory) (buffer : Operand) (size reference : Value) :
    Except Fault (List Float) := do
  let bins ← transform memory buffer size
  let reference ← reference.toFloat
  return bins.map fun bin => Spectrum.decibels reference (Spectrum.magnitude bin)

def slidingTransform (memory : Memory) (buffer : Operand) (window hop size : Value) :
    Except Fault (List (Frame Float)) := do
  let g ← buffer.grid
  Spectrum.slide memory g window hop size

def integrate (buffer : Operand) (initial limit : Value) : Except Fault (List Float) := do
  let g ← buffer.grid
  Integrator.run g initial limit

def given (inputs : List Operand) : List Operand :=
  inputs.filter fun
    | .value .null => false
    | _ => true

def sum (memory : Memory) (inputs : List Operand) (length : Value) : Except Fault (List Float) := do
  let buffers ← (given inputs).mapM Operand.samples
  let size ← match buffers, length with
    | [], v => (v.orElse (.int 0)).toInt
    | first :: _, .null => pure (first.length : Int)
    | _ :: _, v => v.toInt
  if size < 0 then throw .negativeLength
  memory.reserve [size.toNat]
  return Mixing.sum size.toNat buffers

def multiply (first second : Operand) : Except Fault (List Float) := do
  let a ← first.samples
  let b ← second.samples
  return Mixing.product [a, b]

def product (inputs : List Operand) : Except Fault (List Float) := do
  let buffers ← (given inputs).mapM Operand.samples
  return Mixing.product buffers

def phases (signal : Operand) : Except Fault (Grid Float) := do
  let points ← signal.pointGrid
  return points.map Detector.phase

def centred (values : Operand) : Except Fault (Grid Float) := do
  let g ← values.grid
  return g.map Phase.centred

def phaseErrors (signal : Operand) (frequency rate start : Value) : Except Fault (Grid Float) := do
  let _ ← signal.length
  let start ← start.toFloat
  let frequency ← frequency.toFloat
  let rate ← rate.toFloat
  if rate == 0 then throw .divisionByZero
  let points ← signal.pointGrid
  Detector.phaseErrors points (.float frequency) (.float rate) (.float start)

def frequencies (signal : Operand) (rate : Value) : Except Fault (List Float) := do
  let count ← signal.length
  if count < 2 then return List.replicate count 0
  let points ← signal.pointGrid
  Detector.frequencyTrack points rate

def goertzel (buffer : Operand) (frequency rate block : Value) : Except Fault (List Float) := do
  let g ← buffer.grid
  Goertzel.run g frequency rate block

/-- A phase brought into one turn from zero. -/
def wrap (phase : Value) : Except Fault Float := do
  let phase ← phase.factor
  Phase.wrap phase

end Kernel

end Flowgraph
