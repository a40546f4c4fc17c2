import Flowgraph.Memory
import Flowgraph.Value.Conversion
import Flowgraph.Window

/-!
# Filter design

Windowed-sinc lowpass and highpass filters and the quadrature filter of the
Hilbert transformer, all under a Hamming window.  The lowpass prototype is
scaled to unit gain at zero frequency; the highpass is its spectral inversion.
-/

namespace Flowgraph

namespace Filter

open Elementary

inductive Response where
  | lowpass
  | highpass
deriving DecidableEq, Repr

def Response.ofName? (s : String) : Option Response :=
  if s = "lowpass" then some .lowpass
  else if s = "highpass" then some .highpass
  else none

section

variable {α : Type} [Elementary α] [NatCast α] [OfScientific α] [Add α] [Mul α] [Div α]

omit [NatCast α] [Add α] in
/-- `sin (π x) / (π x)`, continued to the origin. -/
def sinc [BEq α] [OfNat α 0] (x : α) : α :=
  let y := pi * (if x == 0 then 1e-20 else x)
  sin y / y

omit [Elementary α] [NatCast α] [Add α] [Mul α] in
/-- Cutoff as a fraction of the sample rate; beyond half of it the filter is designed at half. -/
def normalized [LT α] [DecidableLT α] (cutoff rate : α) : α :=
  let f := cutoff / rate
  if 0.5 < f then 0.5 else f

def offsets [Sub α] [OfNat α 1] [OfNat α 2] (n : Nat) : List α :=
  let centre : α := ((n : α) - 1) / 2
  (List.range n).map fun (i : Nat) => (i : α) - centre

/-- Windowed sinc with its cutoff at `f` of the sample rate, before scaling. -/
def prototype [IntCast α] [Sub α] [BEq α] [OfNat α 0] [OfNat α 1] [OfNat α 2]
    (n : Nat) (f : α) : List α :=
  ((offsets n).map fun x => 2 * f * sinc (2 * f * x)).zipWith (· * ·) (Window.hamming n)

omit [Elementary α] [NatCast α] [OfScientific α] [Mul α] in
/-- Divide by the sum, which is added up from the left, unless that is not positive. -/
def unitGain? [LE α] [DecidableLE α] [OfNat α 0] (taps : List α) : Option (List α) :=
  let total := taps.foldl (· + ·) 0
  if total ≤ 0 then none else some (taps.map (· / total))

omit [Elementary α] [NatCast α] [OfScientific α] [Mul α] [Div α] in
/-- Turn a lowpass of unit gain into the complementary highpass. -/
def invert [Neg α] [OfNat α 1] (taps : List α) : List α :=
  (taps.map (- ·)).modify (taps.length / 2) (· + 1)

/-- Taps of a filter of `n` taps; `none` if the prototype has no positive gain to scale. -/
def taps? [IntCast α] [Sub α] [Neg α] [BEq α] [LT α] [DecidableLT α] [LE α] [DecidableLE α]
    [OfNat α 0] [OfNat α 1] [OfNat α 2]
    (response : Response) (n : Nat) (cutoff rate : α) : Option (List α) :=
  let lowpass? := unitGain? (prototype n (normalized cutoff rate))
  match response with
  | .lowpass => lowpass?
  | .highpass => lowpass?.map invert

/-- Taps of the quadrature filter; the centre of an odd number of taps is zero. -/
def quadrature [IntCast α] [Sub α] [BEq α] [OfNat α 0] [OfNat α 1] [OfNat α 2]
    (n : Nat) : List α :=
  ((offsets n).map fun k => if k == 0 then 0 else (1 - cos (pi * k)) / (pi * k)).zipWith
    (· * ·) (Window.hamming n)

end

/-- Design a filter from parameter values, checking them in order. -/
def design (memory : Memory) (order cutoff rate kind : Value) : Except Fault (List Float) := do
  let n ← order.toInt
  if n < 1 then throw (Value.named .filterOrder (.int n))
  let bound ← rate.numberFor "<=" "int"
  if bound.le (.int 0) then throw .filterRate
  let response ←
    match kind with
    | .text s =>
      match Response.ofName? s with
      | some response => pure response
      | none => throw (.filterKind s)
    | other => throw (other.named .filterKind)
  let cutoffHz ← cutoff.toFloat
  let rateHz ← rate.toFloat
  let count ← memory.rangeLength n
  match taps? response count cutoffHz rateHz with
  | some taps => return taps
  | none => throw (cutoff.named .degenerateFilter)

def designQuadrature (memory : Memory) (order : Value) : Except Fault (List Float) := do
  let n ← order.toInt
  if n < 1 then throw (Value.named .transformerOrder (.int n))
  let count ← memory.rangeLength n
  return quadrature count

end Filter

end Flowgraph
