import Flowgraph.Fault
import Flowgraph.Filter.Convolution
import Flowgraph.Filter.History

/-!
# Streaming filters

A filter that keeps what it needs between buffers: the key of the design its
taps were made for, the taps and the past samples.  A new key replaces the taps
and forgets the past.
-/

namespace Flowgraph

namespace Filter

structure Stream (κ α : Type) where
  key : Option κ
  taps : List α
  past : History α
deriving Repr

namespace Stream

variable {κ α : Type}

def fresh : Stream κ α :=
  ⟨none, [], ⟨[], 0⟩⟩

def designedFor [BEq κ] (s : Stream κ α) (key : κ) : Bool :=
  match s.key with
  | some current => current == key
  | none => false

/-- Take over the taps of a design, unless it is the current one. -/
def configure [BEq κ] [OfNat α 0] (s : Stream κ α) (key : κ) (taps : List α) : Stream κ α :=
  if s.designedFor key then s
  else ⟨some key, taps, .zeros (taps.length - 1)⟩

/-- Make sure the taps are those of `key`; a design that fails changes nothing. -/
def prepare [BEq κ] [OfNat α 0] (s : Stream κ α) (key : κ) (design : Unit → Except Fault (List α)) :
    Stream κ α × Except Fault Unit :=
  if s.designedFor key then (s, .ok ())
  else
    match design () with
    | .ok taps => (s.configure key taps, .ok ())
    | .error fault => (s, .error fault)

def output [Add α] [Mul α] [OfNat α 0] (s : Stream κ α) (buffer : List α) : List α :=
  Filter.apply s.taps s.past.ordered buffer

def push (s : Stream κ α) (buffer : List α) : Stream κ α :=
  { s with past := s.past.push buffer }

def feed [Add α] [Mul α] [OfNat α 0] (s : Stream κ α) (buffer : List α) :
    Stream κ α × List α :=
  (s.push buffer, s.output buffer)

end Stream

end Filter

end Flowgraph
