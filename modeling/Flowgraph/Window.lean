import Flowgraph.Scalar

/-!
# Windows

Weights that taper a stretch of samples towards its ends.
-/

namespace Flowgraph

namespace Window

open Elementary

/-- The Hamming window of `n` samples; a single sample keeps its weight. -/
def hamming {α : Type} [Elementary α] [NatCast α] [IntCast α] [OfScientific α] [OfNat α 1]
    [Add α] [Mul α] [Div α] (n : Nat) : List α :=
  if n = 1 then [1]
  else (List.range n).map fun (i : Nat) =>
    let step : Int := 2 * (i : Int) + 1 - n
    0.54 + 0.46 * cos (pi * (step : α) / ((n - 1 : Nat) : α))

@[simp]
theorem length_hamming {α : Type} [Elementary α] [NatCast α] [IntCast α] [OfScientific α]
    [OfNat α 1] [Add α] [Mul α] [Div α] (n : Nat) : (hamming n : List α).length = n := by
  unfold hamming
  split
  · next single => rw [single, List.length_singleton]
  · rw [List.length_map, List.length_range]

end Window

end Flowgraph
