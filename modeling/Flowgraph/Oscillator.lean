import Flowgraph.Memory
import Flowgraph.Phase
import Flowgraph.Value.Conversion

/-!
# Oscillators

A tone is sampled from a start phase.  Between buffers only the phase is
carried; it is advanced by the same step per sample that the samples use.
-/

namespace Flowgraph

inductive Waveform where
  | sine
  | cosine
deriving DecidableEq, Repr

def Waveform.function {α : Type} [Elementary α] : Waveform → α → α
  | sine => Elementary.sin
  | cosine => Elementary.cos

structure Tone (α : Type) where
  frequency : α
  amplitude : α
  rate : α
deriving Repr

namespace Tone

open Elementary

section

variable {α : Type} [Elementary α] [Add α] [Mul α] [Div α] [OfNat α 2]

def step (t : Tone α) : α :=
  turn * t.frequency / t.rate

/-- `count` samples from a start phase on. -/
def samples [NatCast α] (t : Tone α) (wave : Waveform) (phase : α) (count : Nat) : List α :=
  (List.range count).map fun (n : Nat) => t.amplitude * wave.function (t.step * (n : α) + phase)

def advance [OfNat α 0] [LT α] [DecidableLT α] [LE α] [DecidableLE α]
    (t : Tone α) (phase frames : α) : Except Fault α :=
  Phase.wrap (phase + t.step * frames)

end

/-- Read a tone; the rate must not be zero. -/
def ofValues (amplitude frequency rate : Value) : Except Fault (Tone Float) := do
  let amplitude ← amplitude.toFloat
  let frequency ← frequency.toFloat
  let rate ← rate.toFloat
  if rate == 0 then throw .divisionByZero
  return ⟨frequency, amplitude, rate⟩

def generate (memory : Memory) (wave : Waveform) (frequency amplitude rate count phase : Value) :
    Except Fault (List Float) := do
  let count ← count.toInt
  let count ← memory.rangeLength count
  let tone ← ofValues amplitude frequency rate
  let phase ← phase.toFloat
  return tone.samples wave phase count

/-- Advance a phase, unset meaning zero, by numbers that are taken as they are. -/
def advancePhase (phase frequency rate frames : Value) : Except Fault Float := do
  let frequency ← frequency.factor
  let rate ← rate.factor
  if rate == 0 then throw .divisionByZero
  let frames ← frames.factor
  let start ← (match phase with
    | .null => pure 0
    | v => v.factor : Except Fault Float)
  Tone.advance ⟨frequency, 1, rate⟩ start frames

end Tone

end Flowgraph
