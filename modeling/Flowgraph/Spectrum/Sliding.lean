import Flowgraph.Grid
import Flowgraph.Spectrum.Decibel
import Flowgraph.Spectrum.Fourier
import Flowgraph.Spectrum.PowerOfTwo
import Flowgraph.Window

/-!
# Sliding transform

Overlapping windows of a buffer, each transformed to a spectrum in decibels.
-/

namespace Flowgraph

namespace Spectrum

open Elementary

section

variable {α : Type}

/-- Number of windows of `window` samples, `hop` apart, that fit into `length` samples. -/
def frameCount (window hop length : Nat) : Nat :=
  if length < window then 0 else (length - window) / hop + 1

def segment [Mul α] (weights : List α) (hop i : Nat) (samples : List α) : List α :=
  ((samples.drop (i * hop)).take weights.length).zipWith (· * ·) weights

variable [Elementary α] [NatCast α] [IntCast α] [OfScientific α] [Add α] [Sub α] [Mul α] [Div α]
  [Neg α] [OfNat α 0] [OfNat α 1] [OfNat α 2] [OfNat α 20] [LT α] [DecidableLT α] [LE α]
  [DecidableLE α]

omit [IntCast α] in
def spectrum (size : Nat) (samples : List α) : List α :=
  (bins size samples).map fun bin => decibels 1 (magnitude bin)

def frames (window hop size : Nat) (samples : List α) : List (Frame α) :=
  let weights : List α := Window.hamming window
  (List.range (frameCount window hop samples.length)).map fun (i : Nat) =>
    ⟨((i * hop : Nat) : α) / (samples.length : α), spectrum size (segment weights hop i samples)⟩

end

/-- Bins of samples fitted to a size read from a value, if there is memory for it. -/
def transform (memory : Memory) (samples : List Float) (size : Value) :
    Except Fault (List (Point Float)) := do
  let size ← sizeOf size samples.length
  memory.reserve [size]
  return bins size samples

/-- The frames of a buffer, with sizes read from values. -/
def slide (memory : Memory) (buffer : Grid Float) (window hop size : Value) :
    Except Fault (List (Frame Float)) := do
  let samples ← buffer.line?
  let window ← window.toInt
  let hop ← hop.toInt
  if window ≤ 0 then throw .windowSize
  if hop ≤ 0 then throw .hopSize
  let size ← if size.isGiven then size.toInt else pure window
  let window := window.toNat
  if samples.length < window then return []
  let size ← sizeOf (.int size) window
  memory.reserve [size]
  return frames window hop.toNat size samples

end Spectrum

end Flowgraph
