import Flowgraph.Phase
import Flowgraph.Proofs.Number.Real
import Mathlib.Algebra.Order.ToIntervalMod

/-!
# Wrapped angles, exactly

On the real numbers both wraps take the one representative in their interval
that differs from the angle by whole turns.  So they do not tell angles apart
that are congruent modulo a full turn.
-/

namespace Flowgraph

namespace Elementary

/-- A remainder that is raised when it is negative is the representative in `[0, y)`. -/
theorem raised_remainder (x : ℝ) {y : ℝ} (positive : 0 < y) :
    (if remainder x y < 0 then remainder x y + y else remainder x y) =
      toIcoMod positive 0 x := by
  obtain ⟨near, turns, whole⟩ := remainder_spec x positive
  obtain ⟨low, high⟩ := abs_lt.mp near
  symm
  rw [toIcoMod_eq_iff, zero_add]
  split
  · next negative =>
      refine ⟨⟨by linarith, by linarith⟩, turns - 1, ?_⟩
      rw [sub_smul, one_smul, add_add_sub_cancel]
      exact whole
  · next nonnegative => exact ⟨⟨not_lt.mp nonnegative, high⟩, turns, whole⟩

theorem floorMod_real (x : ℝ) {y : ℝ} (positive : 0 < y) :
    floorMod x y = toIcoMod positive 0 x := by
  have sign : (remainder x y < 0 ∧ 0 < y) ∨ (0 < remainder x y ∧ y < 0) ↔ remainder x y < 0 := by
    simp [positive, positive.le]
  simp only [floorMod, sign]
  exact raised_remainder x positive

end Elementary

namespace Phase

open Elementary

theorem settle_real (x : ℝ) : settle x = toIcoMod Real.two_pi_pos 0 x := by
  have positive : (0 : ℝ) < turn := Real.two_pi_pos
  have inside := toIcoMod_mem_Ico' positive x
  simp only [settle, raised_remainder x positive]
  exact if_neg (not_le.mpr inside.2)

theorem wrap_real (x : ℝ) : wrap x = .ok (toIcoMod Real.two_pi_pos 0 x) := by
  rw [wrap, settle_real, infinite_real]
  rfl

theorem centred_real (x : ℝ) : centred x = toIcoMod Real.two_pi_pos (-Real.pi) x := by
  show floorMod (x + Real.pi) (2 * Real.pi) - Real.pi = _
  rw [floorMod_real _ Real.two_pi_pos, toIcoMod_add_right_eq_add, zero_sub, add_sub_cancel_right]

end Phase

end Flowgraph
