import Flowgraph.Proofs.Kernel.Lines
import Mathlib.Algebra.BigOperators.Group.Finset.Basic
import Mathlib.Algebra.Ring.Nat

/-!
# Filters are causal

A sample that leaves a filter is a sum over its taps, each times the sample as
many places back as the tap has before it.  The stream is what was remembered and
then the buffer, with zeros before its start.
-/

namespace Flowgraph

namespace Filter

section

variable {α : Type} [OfNat α 0]

/-- The sample `back` places before place `i` of a stream; zero before its start. -/
def sampleBack (stream : List α) (i back : Nat) : α :=
  if back ≤ i then stream.getD (i - back) 0 else 0

theorem getElem?_zeros_append {stream : List α} {need i back : Nat} (inside : i < stream.length)
    (reached : back ≤ need) :
    (List.replicate need 0 ++ stream)[i + need - back]? = some (sampleBack stream i back) := by
  unfold sampleBack
  split
  · next within =>
      have place : i + need - back - need = i - back := by omega
      have known : i - back < stream.length := by omega
      rw [List.getElem?_append_right (by rw [List.length_replicate]; omega), List.length_replicate,
        place, List.getD_eq_getElem?_getD, List.getElem?_eq_getElem known, Option.getD_some]
  · rw [List.getElem?_append_left (by rw [List.length_replicate]; omega),
      List.getElem?_replicate_of_lt (by omega)]

/-- The window that a filter sees at a place of its buffer, from the newest sample back. -/
theorem reverse_window {history buffer : List α} {n : Nat} (inside : n < buffer.length)
    {reach : Nat} (some : 0 < reach) :
    (((recent (reach - 1) history ++ buffer).drop n).take reach).reverse =
      (List.range reach).map (sampleBack (history ++ buffer) (history.length + n)) := by
  have known : history.length + n < (history ++ buffer).length := by
    rw [List.length_append]
    omega
  have whole : (((recent (reach - 1) history ++ buffer).drop n).take reach).length = reach := by
    rw [List.length_take_of_le]
    rw [List.length_drop, List.length_append, length_recent]
    omega
  refine List.ext_getElem? fun back => ?_
  rcases Nat.lt_or_ge back reach with within | beyond
  · have place : history.length + (n + (reach - 1 - back)) =
        history.length + n + (reach - 1) - back := by omega
    rw [List.getElem?_reverse (by rwa [whole]), whole, List.getElem?_take_of_lt (by omega),
      List.getElem?_drop, recent_append_eq_drop, List.getElem?_drop, place,
      getElem?_zeros_append known (by omega), List.getElem?_map, List.getElem?_range within]
    rfl
  · rw [List.getElem?_eq_none (by rwa [List.length_reverse, whole]),
      List.getElem?_eq_none (by rwa [List.length_map, List.length_range])]

variable [Add α] [Mul α]

/-- The sum over the taps of a tap times the sample as many places back, last tap first. -/
def convolved (taps stream : List α) (i : Nat) : α :=
  (List.range taps.length).foldr (fun k sum => sum + taps.getD k 0 * sampleBack stream i k) 0

theorem dot_reverse (taps : List α) (sample : Nat → α) :
    dot taps.reverse ((List.range taps.length).map sample).reverse =
      (List.range taps.length).foldr (fun k sum => sum + taps.getD k 0 * sample k) 0 := by
  have even : taps.length = ((List.range taps.length).map sample).length := by simp
  have products : taps.zipWith (· * ·) ((List.range taps.length).map sample) =
      (List.range taps.length).map fun k => taps.getD k 0 * sample k := by
    refine List.ext_getElem (by simp) fun k inside _ => ?_
    have known : k < taps.length := by simpa using inside
    simp [known]
  rw [dot, ← List.reverse_zipWith even, List.foldl_reverse, products, List.foldr_map]

structure Convolves (taps history buffer output : List α) : Prop where
  length_eq : output.length = buffer.length
  getElem_eq : ∀ n (inside : n < output.length),
    output[n] = convolved taps (history ++ buffer) (history.length + n)

theorem convolves_apply (taps history buffer : List α) :
    Convolves taps history buffer (apply taps history buffer) := by
  refine ⟨length_apply .., fun n inside => ?_⟩
  have within : n < buffer.length := by rwa [length_apply] at inside
  let window := (recent (taps.length - 1) history ++ buffer).drop n
  have shown : (apply taps history buffer)[n] = dot taps.reverse window := getElem_slide ..
  rw [shown]
  -- without a tap there is no window of which the newest sample is the last
  rcases Nat.eq_zero_or_pos taps.length with none | some
  · rw [convolved, none, List.eq_nil_of_length_eq_zero none]
    rfl
  · have covered : taps.length ≤ window.length := by
      rw [List.length_drop, List.length_append, length_recent]
      omega
    have first : dot taps.reverse window = dot taps.reverse (window.take taps.length) := by
      conv_lhs => rw [← List.take_append_drop taps.length window]
      exact dot_append (by rw [List.length_reverse, List.length_take_of_le covered]) _
    rw [first, ← List.reverse_reverse (window.take taps.length), reverse_window within some,
      dot_reverse]
    rfl

end

/-! ## Exact arithmetic -/

theorem foldr_range_add {M : Type} [AddCommMonoid M] (f : Nat → M) (n : Nat) (start : M) :
    (List.range n).foldr (fun k sum => sum + f k) start = start + ∑ k ∈ Finset.range n, f k := by
  induction n generalizing start with
  | zero => simp
  | succ n ih =>
      rw [List.range_succ, List.foldr_append, List.foldr_cons, List.foldr_nil, ih,
        Finset.sum_range_succ, add_assoc, add_comm (f n)]

theorem convolved_eq_sum {R : Type} [Semiring R] (taps stream : List R) (i : Nat) :
    convolved taps stream i =
      ∑ k ∈ Finset.range taps.length, taps.getD k 0 * sampleBack stream i k := by
  rw [convolved, foldr_range_add, zero_add]

/--
Filters are causal convolutions.  The kernel takes every line of samples, every
line of taps and every line of history or none, however long.  It gives a sample
for each of its buffer: the sum over the taps of a tap times the sample as many
places back in history and buffer, with zeros before.  What it gives for two
buffers in turn, the first being the history of the second, is what it gives for
both at once.  On doubles the sum begins with the last tap; in exact arithmetic
its order does not matter.
-/
theorem causal_convolution :
    -- on doubles
    (∀ (buffer taps : Operand.Line) (history : Option Operand.Line), ∃ output,
      Kernel.filter buffer.operand taps.operand (history.map (·.operand)) = .ok output ∧
        Convolves taps.samples ((history.map (·.samples)).getD []) buffer.samples output) ∧
    (∀ first second both taps : Operand.Line, both.samples = first.samples ++ second.samples →
      ∃ before after,
        Kernel.filter first.operand taps.operand none = .ok before ∧
          Kernel.filter second.operand taps.operand (some first.operand) = .ok after ∧
          Kernel.filter both.operand taps.operand none = .ok (before ++ after)) ∧
    -- in exact arithmetic
    ∀ (R : Type) [Semiring R] (taps history buffer : List R),
      (apply taps history buffer).length = buffer.length ∧
        (∀ n (inside : n < (apply taps history buffer).length),
          (apply taps history buffer)[n] = ∑ k ∈ Finset.range taps.length,
            taps.getD k 0 * sampleBack (history ++ buffer) (history.length + n) k) ∧
        ∀ more, apply taps [] (buffer ++ more) = apply taps [] buffer ++ apply taps buffer more := by
  refine ⟨fun buffer taps history => ?_, fun first second both taps joined => ?_, ?_⟩
  · exact ⟨_, Kernel.filter_line buffer taps history, convolves_apply ..⟩
  · refine ⟨_, _, Kernel.filter_line first taps none, Kernel.filter_line second taps (some first),
      ?_⟩
    refine (Kernel.filter_line both taps none).trans (congrArg Except.ok ?_)
    rw [joined]
    exact apply_append taps.samples [] first.samples second.samples
  · intro R _ taps history buffer
    have convolves := convolves_apply taps history buffer
    refine ⟨convolves.length_eq, fun n inside => ?_, fun more => ?_⟩
    · rw [convolves.getElem_eq n inside, convolved_eq_sum]
    · rw [apply_append, List.nil_append]

/-- Three samples in one buffer, and cut after the first, through two taps. -/
theorem causal_convolution_cut :
    (∃ before after,
      Kernel.filter (.ofSamples [8]) (.ofSamples [0.5, 0.25]) none = .ok before ∧
        Kernel.filter (.ofSamples [4, 2]) (.ofSamples [0.5, 0.25]) (some (.ofSamples [8])) =
          .ok after ∧
        Kernel.filter (.ofSamples [8, 4, 2]) (.ofSamples [0.5, 0.25]) none =
          .ok (before ++ after)) ∧
    (apply [1, 10, 100] [7] [2, 3])[1]? = some (1 * 3 + (10 * 2 + 100 * 7)) := by
  refine ⟨causal_convolution.2.1 (.ofSamples [8]) (.ofSamples [4, 2]) (.ofSamples [8, 4, 2])
    (.ofSamples [0.5, 0.25]) rfl, ?_⟩
  obtain ⟨-, sums, -⟩ := causal_convolution.2.2 Nat [1, 10, 100] [7] [2, 3]
  exact (List.getElem?_eq_getElem (by decide)).trans (congrArg some (sums 1 (by decide)))

end Filter

end Flowgraph
