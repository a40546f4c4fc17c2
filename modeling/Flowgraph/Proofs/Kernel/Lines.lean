import Flowgraph.Kernel
import Flowgraph.Proofs.Filter.Streaming
import Flowgraph.Proofs.Grid

/-!
# Lines as plain values

A buffer that a caller hands over as a plain value is read along one axis, or it
is refused.  A filter reads no more of its past than its taps reach.
-/

namespace Flowgraph

/-! ## Reading lines -/

namespace Operand

def ofSamples (samples : List Float) : Operand :=
  .value (.list (samples.map .float))

@[simp]
theorem samples_ofSamples (samples : List Float) :
    (ofSamples samples).samples = .ok samples := by
  simp [Operand.samples, ofSamples, Operand.grid, Grid.ofValue_floats, bind, Except.bind]

structure Line where
  operand : Operand
  samples : List Float
  samples_eq : operand.samples = .ok samples

namespace Line

def ofSamples (samples : List Float) : Line :=
  ⟨.ofSamples samples, samples, samples_ofSamples samples⟩

theorem grid_eq (l : Line) : l.operand.grid = .ok (.line l.samples) := by
  obtain ⟨g, read, line⟩ := of_bind_eq_ok l.samples_eq
  rw [read, Grid.line?_eq_ok_iff.mp line]

end Line

end Operand

/-! ## Filtering lines -/

/-- Without samples, or without a tap that reaches back, the past is not read. -/
theorem Filter.apply_eq_apply_nil {α : Type} [Add α] [Mul α] [OfNat α 0] {taps buffer : List α}
    (unread : buffer = [] ∨ taps.length ≤ 1) (history : List α) :
    apply taps history buffer = apply taps [] buffer := by
  rcases unread with rfl | short
  · rfl
  · have need : taps.length - 1 = 0 := by omega
    have nothing (past : List α) : recent 0 past = [] :=
      List.eq_nil_of_length_eq_zero (length_recent ..)
    simp only [apply, need, nothing]

namespace Kernel

/-- A filter takes lines, and looks at its history only where it makes a difference. -/
theorem filter_line (buffer taps : Operand.Line) (history : Option Operand.Line) :
    filter buffer.operand taps.operand (history.map (·.operand)) =
      .ok (Filter.apply taps.samples ((history.map (·.samples)).getD []) buffer.samples) := by
  simp only [filter, buffer.samples_eq, taps.samples_eq, filterSamples, bind, Except.bind]
  split
  · next unread =>
      rw [Bool.or_eq_true, List.isEmpty_iff, decide_eq_true_eq] at unread
      exact congrArg Except.ok (Filter.apply_eq_apply_nil unread _).symm
  · cases history with
    | none => rfl
    | some past =>
        simp only [Option.map_some, past.samples_eq]
        rfl

theorem filter_ofSamples (samples taps : List Float) :
    filter (.ofSamples samples) (.ofSamples taps) none = .ok (Filter.apply taps [] samples) :=
  filter_line (.ofSamples samples) (.ofSamples taps) none

end Kernel

end Flowgraph
