import Flowgraph.Grid
import Flowgraph.Scalar

/-!
# Running sums

Without a limit the sums begin with the first sample, and the initial value is
added to each.  With a limit the sum starts from the initial value and restarts from
zero at every sample where its magnitude would pass the limit.
-/

namespace Flowgraph

namespace Integrator

open Elementary

section

variable {α : Type} [Add α]

def sums (start : α) : List α → List α
  | [] => []
  | x :: rest => (start + x) :: sums (start + x) rest

/-- The sums of the first sample, of the first two, and so on; the first one is no sum yet. -/
def partialSums : List α → List α
  | [] => []
  | x :: rest => x :: sums x rest

def running (initial : α) (samples : List α) : List α :=
  (partialSums samples).map (initial + ·)

variable [OfNat α 0] [LT α] [DecidableLT α] [Neg α]

def add (limit total x : α) : α :=
  if limit < magnitude (total + x) then 0 else total + x

/-- Running sums that restart beyond a limit. -/
def limited (limit total : α) : List α → List α
  | [] => []
  | x :: rest => add limit total x :: limited limit (add limit total x) rest

def integrate (limit : Option α) (initial : α) (samples : List α) : List α :=
  match limit with
  | none => running initial samples
  | some limit => limited (magnitude limit) initial samples

/-- The sum to carry on from, which is the last one, and the running sums of a buffer. -/
def feed (limit : Option α) (total : α) (samples : List α) : α × List α :=
  let output := integrate limit total samples
  (output.getLast?.getD total, output)

omit [OfNat α 0] [LT α] [DecidableLT α] [Neg α] in
@[simp]
theorem length_sums (start : α) (samples : List α) :
    (sums start samples).length = samples.length := by
  induction samples generalizing start with
  | nil => rfl
  | cons x rest ih => simp [sums, ih]

omit [OfNat α 0] [LT α] [DecidableLT α] [Neg α] in
@[simp]
theorem length_partialSums (samples : List α) : (partialSums samples).length = samples.length := by
  cases samples <;> simp [partialSums]

@[simp]
theorem length_limited (limit total : α) (samples : List α) :
    (limited limit total samples).length = samples.length := by
  induction samples generalizing total with
  | nil => rfl
  | cons x rest ih => simp [limited, ih]

@[simp]
theorem length_integrate (limit : Option α) (initial : α) (samples : List α) :
    (integrate limit initial samples).length = samples.length := by
  cases limit <;> simp [integrate, running]

end

/-- Running sums of a buffer, with the initial value and the limit read from values. -/
def run (buffer : Grid Float) (initial limit : Value) : Except Fault (List Float) := do
  let samples ← buffer.line?
  match limit with
  | .null =>
    let initial ← initial.toFloat
    return integrate none initial samples
  | v =>
    let limit ← v.toFloat
    let initial ← initial.toFloat
    return integrate (some limit) initial samples

end Integrator

end Flowgraph
