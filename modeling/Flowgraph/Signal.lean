import Flowgraph.Grid

/-!
# Signals

What travels along an edge: a buffer of real samples, a buffer of points of the
complex plane, or the frames of a sliding transform.
-/

namespace Flowgraph

structure Point (α : Type) where
  re : α
  im : α
deriving Repr

structure Frame (α : Type) where
  timestamp : α
  spectrum : List α
deriving Repr

/-- Declared kind of the buffers at one side of a block. -/
inductive SignalType where
  | real
  | complex
deriving DecidableEq, Repr

namespace SignalType

def name : SignalType → String
  | real => "real"
  | complex => "complex"

def ofName? (s : String) : Option SignalType :=
  if s = "real" then some real
  else if s = "complex" then some complex
  else none

end SignalType

inductive Signal where
  | real (buffer : Grid Float)
  | complex (buffer : Grid (Point Float))
  | frames (frames : List (Frame Float))

namespace Point

variable {α : Type}

/-- Pair two planes, which must have one shape. -/
def planes? (re im : Grid α) : Except Fault (Grid (Point α)) :=
  if h : re.shape = im.shape then
    .ok ((re.zip im h).map fun p => ⟨p.1, p.2⟩)
  else .error (.planes re.shape im.shape)

def zip (re im : List α) : List (Point α) :=
  re.zipWith Point.mk im

/-- The real and the imaginary part after adding `i` times the imaginary part to the real part. -/
def asComplex [Add α] [Sub α] [Mul α] [OfNat α 0] (p : Point α) : Point α :=
  ⟨p.re + (0 * p.im - 0), 0 + p.im⟩

def zeros (memory : Memory) (shape : Value) : Except Fault (Grid (Point Float)) :=
  (Grid.zeros memory shape).map fun g => g.map fun x => ⟨x, x⟩

end Point

namespace Signal

def silence (memory : Memory) (size : Value) : Except Fault Signal :=
  (Grid.zeros memory size).map .real

def origin (memory : Memory) (size : Value) : Except Fault Signal :=
  (Point.zeros memory size).map .complex

end Signal

end Flowgraph
