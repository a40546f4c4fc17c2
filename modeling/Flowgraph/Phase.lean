import Flowgraph.Fault
import Flowgraph.Scalar

/-!
# Angles modulo a full turn

Two systems of representatives: oscillators carry a phase in `[0, turn)`,
detectors report angles in `[-pi, pi)`.
-/

namespace Flowgraph

namespace Phase

open Elementary

variable {α : Type} [Elementary α] [Add α] [Mul α] [LT α] [DecidableLT α] [OfNat α 0] [OfNat α 2]

/-- The representative in `[0, turn)`; a sum that rounds up to the full turn starts over. -/
def settle [LE α] [DecidableLE α] (x : α) : α :=
  let r := remainder x turn
  let r := if r < 0 then r + turn else r
  if turn ≤ r then 0 else r

/-- The representative in `[0, turn)`, for any angle that is not infinite. -/
def wrap [LE α] [DecidableLE α] (x : α) : Except Fault α :=
  if infinite x then .error .outsideDomain else .ok (settle x)

/-- The representative in `[-pi, pi)`. -/
def centred [Sub α] (x : α) : α :=
  floorMod (x + pi) turn - pi

end Phase

end Flowgraph
