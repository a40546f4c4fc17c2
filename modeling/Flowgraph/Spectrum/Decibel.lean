import Flowgraph.Scalar
import Flowgraph.Signal

/-!
# Magnitudes in decibels
-/

namespace Flowgraph

namespace Spectrum

open Elementary

variable {α : Type} [Elementary α]

/-- Ratios below this count as this. -/
def leastRatio [OfScientific α] : α :=
  1e-10

/-- Twenty times the decimal logarithm of `x / reference`, bounded below. -/
def decibels [OfScientific α] [Add α] [Mul α] [Div α] [OfNat α 20] [LT α] [DecidableLT α]
    [LE α] [DecidableLE α] (reference x : α) : α :=
  20 * log10 (maximum (x / reference) leastRatio)

def magnitude (bin : Point α) : α :=
  hypot bin.re bin.im

end Spectrum

end Flowgraph
