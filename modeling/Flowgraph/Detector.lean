import Flowgraph.Phase
import Flowgraph.Signal

/-!
# Phase and frequency detection

The phase detector compares the angle of each point with a linearly advancing
reference; the frequency detector takes the angle between neighbouring points.
-/

namespace Flowgraph

namespace Detector

open Elementary

section

variable {α : Type} [Elementary α] [Add α] [Sub α] [Mul α] [Div α] [OfNat α 0] [OfNat α 2]
  [LT α] [DecidableLT α]

omit [Add α] [Sub α] [Mul α] [Div α] [OfNat α 0] [OfNat α 2] [LT α] [DecidableLT α] in
def phase (p : Point α) : α :=
  angle p.im p.re

omit [Sub α] [Div α] [OfNat α 0] [OfNat α 2] [LT α] [DecidableLT α] [Elementary α] in
/-- Phase of a reference after `0, 1, …, count - 1` steps. -/
def reference [NatCast α] (start step : α) (count : Nat) : List α :=
  (List.range count).map fun (n : Nat) => start + step * (n : α)

def deviation [OfNat α 180] (angle reference : α) : α :=
  Phase.centred (angle - reference) * (180 / pi)

/-- Turns per second between two angles. -/
def frequencyBetween (rate before after : α) : α :=
  Phase.centred (after - before) * rate / turn

def differences (rate : α) (angles : List α) : List α :=
  angles.zipWith (frequencyBetween rate) angles.tail

/-- Frequencies between neighbouring angles, the last one repeated; one angle has none. -/
def frequencies (rate : α) (angles : List α) : List α :=
  match (differences rate angles).getLast? with
  | none => angles.map fun _ => 0
  | some last => differences rate angles ++ [last]

end

def phaseErrors (signal : Grid (Point Float)) (frequency rate start : Value) :
    Except Fault (Grid Float) := do
  let count ← signal.length?
  let start ← start.toFloat
  let frequency ← frequency.toFloat
  let rate ← rate.toFloat
  if rate == 0 then throw .divisionByZero
  let step := turn * frequency / rate
  (signal.map phase).alongLast deviation (reference start step count)

def frequencyTrack (signal : Grid (Point Float)) (rate : Value) : Except Fault (List Float) := do
  let count ← signal.length?
  if count < 2 then return List.replicate count 0
  let rate ← rate.toFloat
  if 1 < signal.rank then throw (.shapesDiffer signal.shape [count - 1])
  return frequencies rate (signal.cells.map phase)

end Detector

end Flowgraph
