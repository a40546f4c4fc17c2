import Flowgraph.Scalar

/-!
# Integer levels

Samples as 16-bit integers.  Samples beyond full scale are scaled down by one
factor first, so no sample is cut off.
-/

namespace Flowgraph

namespace Audio

open Elementary

variable {α : Type} [Elementary α] [OfNat α 0] [Add α] [Mul α] [Div α] [Neg α]
  [LT α] [DecidableLT α] [LE α] [DecidableLE α]

omit [Elementary α] [Mul α] [Div α] in
def peak (samples : List α) : α :=
  samples.foldl (fun top x => maximum top (magnitude x)) 0

omit [Add α] [Mul α] [Div α] [Neg α] [LE α] [DecidableLE α] in
/-- The integer level of a scaled sample; what is no number becomes zero. -/
def level (x : α) : Int :=
  match round? x with
  | some n => max (-32768) (min 32767 n)
  | none => if infinite x then (if x < 0 then -32768 else 32767) else 0

variable [OfNat α 1] [OfScientific α] [OfNat α 32767]

def normalize (samples : List α) : List α :=
  let top := peak samples
  if 1 < top then samples.map fun x => x / top * 0.98 else samples

def levels (samples : List α) : List Int :=
  (normalize samples).map fun x => level (x * 32767)

end Audio

end Flowgraph
