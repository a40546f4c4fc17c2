import Flowgraph.Grid

/-!
# Sample sources

A mono stream of samples with a positive rate, held in memory.
-/

namespace Flowgraph

namespace Audio

structure Source where
  samples : List Float
  rate : Nat
  name : String
deriving Repr

namespace Source

/-- The samples of a line, or of the first column of a table. -/
def channel (g : Grid Float) : Except Fault (List Float) :=
  match g.shape with
  | [_] => .ok g.cells
  | [_, 0] => .error .noColumn
  | [rows, width] => .ok ((List.range rows).filterMap fun i => g.cells[i * width]?)
  | _ => .error (.sourceRank g.rank)

def ofSamples (samples : List Float) (rate : Int) (name : String) : Except Fault Source :=
  if rate ≤ 0 then .error .sourceRate else .ok ⟨samples, rate.toNat, name⟩

/-- A source from samples, or frames of several channels, and a rate. -/
def ofValues (samples : Value) (rate : Value) (name : String) : Except Fault Source := do
  let g ← Grid.ofValue samples
  let samples ← channel g
  let n ← rate.toInt
  ofSamples samples n name

def duration (s : Source) : Except Fault Float := do
  let rate ← Number.floatOfInt s.rate
  return Float.ofNat s.samples.length / rate

def read (s : Source) (offset count : Nat) : List Float :=
  (s.samples.drop offset).take count

/-- Samples from an offset on, both numbers read from values; a negative number counts as zero. -/
def readValues (s : Source) (offset count : Value) : Except Fault (List Float) := do
  let offset ← offset.toInt
  let count ← count.toInt
  return s.read offset.toNat count.toNat

/-- Cut samples into blocks of `n + 1`, the last one filled up with zeros. -/
def blocks {α : Type} [OfNat α 0] (n : Nat) (samples : List α) : List (List α) :=
  match samples with
  | [] => []
  | x :: rest =>
    (x :: rest.take n ++ List.replicate (n - rest.length) 0) :: blocks n (rest.drop n)
termination_by samples.length

def blocksOf (memory : Memory) (s : Source) (size : Value) : Except Fault (List (List Float)) := do
  let n ← size.toInt
  if n ≤ 0 then throw .blockSize
  if !s.samples.isEmpty then memory.reserve [n.toNat]
  return blocks (n.toNat - 1) s.samples

end Source

/-- What a sound library reads out of a file: frames of one sample per channel. -/
structure Sound where
  rate : Int
  channels : Nat
  frames : List (List Float)
  frames_length : ∀ frame ∈ frames, frame.length = channels

def Sound.first (s : Sound) : Except Fault (List Float) :=
  if s.channels = 0 then .error .noColumn else .ok (s.frames.filterMap List.head?)

end Audio

end Flowgraph
