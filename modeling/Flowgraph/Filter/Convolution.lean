/-!
# Convolution

A finite impulse response is applied to a stream of samples cut into buffers.
Each output sample is one sum of tap-times-sample products, taken from the
oldest sample of its window to the newest.
-/

namespace Flowgraph

namespace Filter

variable {α : Type} [Add α] [Mul α] [OfNat α 0]

/-- The sum of products of weights with samples, from the left. -/
def dot (weights samples : List α) : α :=
  (weights.zipWith (· * ·) samples).foldl (· + ·) 0

def slide (weights : List α) : (count : Nat) → (stream : List α) → List α
  | 0, _ => []
  | count + 1, stream => dot weights stream :: slide weights count stream.tail

omit [Add α] [Mul α] in
/-- The last `need` samples of `history`, oldest first, with zeros before its start. -/
def recent (need : Nat) (history : List α) : List α :=
  let known := history.drop (history.length - need)
  List.replicate (need - known.length) 0 ++ known

/--
Filter a buffer whose predecessors are `history`, oldest first: sample `n` is
the sum over `k` of `taps[k]` times the `k`-th sample before `n`.
-/
def apply (taps history buffer : List α) : List α :=
  slide taps.reverse buffer.length (recent (taps.length - 1) history ++ buffer)

@[simp]
theorem length_slide (weights : List α) (count : Nat) (stream : List α) :
    (slide weights count stream).length = count := by
  induction count generalizing stream with
  | zero => rfl
  | succ count ih => simp [slide, ih]

@[simp]
theorem length_apply (taps history buffer : List α) :
    (apply taps history buffer).length = buffer.length :=
  length_slide ..

omit [Add α] [Mul α] in
@[simp]
theorem length_recent (need : Nat) (history : List α) :
    (recent need history).length = need := by
  simp only [recent, List.length_append, List.length_replicate, List.length_drop]
  omega

end Filter

end Flowgraph
