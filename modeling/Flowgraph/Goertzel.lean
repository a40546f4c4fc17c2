import Flowgraph.Grid
import Flowgraph.Scalar

/-!
# Goertzel detection

The magnitude of one bin of the discrete Fourier transform, block by block,
from a recurrence over the samples.  Every sample of a block gets the block's
magnitude; the last block may be short.
-/

namespace Flowgraph

namespace Goertzel

open Elementary

section

variable {α : Type} [Elementary α] [Add α] [Sub α] [Mul α] [OfNat α 0] [OfNat α 2]

/-- The bin nearest to a frequency, for blocks of `n` samples. -/
def bin? [Div α] [NatCast α] [OfScientific α] (n : Nat) (frequency rate : α) : Option Int :=
  floor? ((n : α) * frequency / rate + 0.5)

def angularStep [Div α] [NatCast α] [IntCast α] (n : Nat) (k : Int) : α :=
  turn * (k : α) / (n : α)

/-- One step of the recurrence on its last two values, newest first. -/
def advance (coefficient : α) (s : α × α) (sample : α) : α × α :=
  (sample + coefficient * s.1 - s.2, s.1)

def power (coefficient : α) (s : α × α) : α :=
  s.1 * s.1 + s.2 * s.2 - coefficient * s.1 * s.2

def magnitude [LT α] [DecidableLT α] (coefficient : α) (block : List α) : α :=
  let p := power coefficient (block.foldl (advance coefficient) (0, 0))
  sqrt (if p < 0 then 0 else p)

/-- Hold the magnitude of each block of `n + 1` samples. -/
def detect [LT α] [DecidableLT α] (coefficient : α) (n : Nat) (samples : List α) : List α :=
  match samples with
  | [] => []
  | x :: rest =>
    let block := x :: rest.take n
    List.replicate block.length (magnitude coefficient block) ++
      detect coefficient n (rest.drop n)
termination_by samples.length

end

/-- Detect a frequency read from values, in blocks of a size read from a value. -/
def run (buffer : Grid Float) (frequency rate block : Value) : Except Fault (List Float) := do
  let samples ← buffer.line?
  let n ← block.toInt
  if n ≤ 0 then throw .goertzelBlock
  let n := n.toNat
  let frequency ← frequency.toFloat
  let size ← Number.floatOfInt n
  let rate ← rate.toFloat
  if rate == 0 then throw .divisionByZero
  match bin? n frequency rate with
  | none =>
    let position := size * frequency / rate + 0.5
    throw (if position.isNaN then .undefinedInteger else .infiniteInteger)
  | some k =>
    let angle : Float := angularStep n k
    if infinite angle then throw .outsideDomain
    return detect (2 * cos angle) (n - 1) samples

end Goertzel

end Flowgraph
