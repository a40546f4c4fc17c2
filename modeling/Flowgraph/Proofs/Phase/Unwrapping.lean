import Flowgraph.Detector
import Flowgraph.Proofs.Phase.Wrapping

/-!
# Unwrapping phases

Between neighbouring angles the turn that is counted is the one in `[-pi, pi)`.
So whole turns do not count, and phases that move within that interval from one
to the next are found again.
-/

namespace Flowgraph

namespace Detector

/-! ## Neighbouring angles -/

section

variable {α : Type} [Elementary α] [Add α] [Sub α] [Mul α] [Div α] [OfNat α 0] [OfNat α 2]
  [LT α] [DecidableLT α]

theorem differences_range (rate : α) (angle : Nat → α) (m : Nat) :
    differences rate ((List.range (m + 1)).map angle) =
      (List.range m).map fun i => frequencyBetween rate (angle i) (angle (i + 1)) := by
  apply List.ext_getElem
  · simp [differences]
  · intro i inside _
    simp [differences]

/-- From two angles on, the last frequency is repeated. -/
theorem frequencies_range (rate : α) (angle : Nat → α) (m : Nat) :
    frequencies rate ((List.range (m + 2)).map angle) =
      (List.range (m + 1)).map (fun i => frequencyBetween rate (angle i) (angle (i + 1))) ++
        [frequencyBetween rate (angle m) (angle (m + 1))] := by
  have last : (differences rate ((List.range (m + 2)).map angle)).getLast? =
      some (frequencyBetween rate (angle m) (angle (m + 1))) := by
    rw [differences_range, List.range_succ, List.map_append, List.map_singleton,
      List.getLast?_concat]
  rw [frequencies, last, differences_range]

theorem mem_differences {rate f : α} {angles : List α} (mem : f ∈ differences rate angles) :
    ∃ before after, f = frequencyBetween rate before after := by
  rw [differences, ← List.map_uncurry_zip_eq_zipWith] at mem
  obtain ⟨⟨before, after⟩, -, rfl⟩ := List.mem_map.mp mem
  exact ⟨before, after, rfl⟩

end

/-! ## On the real numbers -/

theorem frequencyBetween_real (rate before after : ℝ) :
    frequencyBetween rate before after =
      toIcoMod Real.two_pi_pos (-Real.pi) (after - before) * rate / (2 * Real.pi) := by
  rw [frequencyBetween, Phase.centred_real]
  rfl

/-- Between two phases that stay within half a turn, whole turns do not count. -/
theorem frequencyBetween_modEq (rate : ℝ) {before after p q : ℝ}
    (first : before ≡ p [PMOD 2 * Real.pi]) (second : after ≡ q [PMOD 2 * Real.pi])
    (near : q - p ∈ Set.Ico (-Real.pi) Real.pi) :
    frequencyBetween rate before after = (q - p) * rate / (2 * Real.pi) := by
  have turn : -Real.pi + 2 * Real.pi = Real.pi := by ring
  have least : toIcoMod Real.two_pi_pos (-Real.pi) (q - p) = q - p := by
    rw [toIcoMod_eq_self, turn]
    exact near
  rw [frequencyBetween_real, (second.sub first).toIcoMod_eq_toIcoMod, least]

theorem frequencyBetween_mem {rate : ℝ} (positive : 0 < rate) (before after : ℝ) :
    frequencyBetween rate before after ∈ Set.Ico (-(rate / 2)) (rate / 2) := by
  have turn : -Real.pi + 2 * Real.pi = Real.pi := by ring
  obtain ⟨low, high⟩ := toIcoMod_mem_Ico Real.two_pi_pos (-Real.pi) (after - before)
  rw [turn] at high
  have scale : 0 < rate / (2 * Real.pi) := div_pos positive Real.two_pi_pos
  have half : Real.pi * (rate / (2 * Real.pi)) = rate / 2 := by
    field_simp
  rw [frequencyBetween_real, mul_div_assoc]
  constructor
  · rw [← half, ← neg_mul]
    exact mul_le_mul_of_nonneg_right low scale.le
  · rw [← half]
    exact mul_lt_mul_of_pos_right high scale

theorem mem_frequencies {rate f : ℝ} (positive : 0 < rate) {angles : List ℝ}
    (mem : f ∈ frequencies rate angles) : f ∈ Set.Ico (-(rate / 2)) (rate / 2) := by
  unfold frequencies at mem
  split at mem
  · obtain ⟨angle, -, rfl⟩ := List.mem_map.mp mem
    constructor <;> linarith
  · next last found =>
    have among : f ∈ differences rate angles := by
      rcases List.mem_append.mp mem with mem | mem
      · exact mem
      · rw [List.mem_singleton.mp mem]
        exact List.mem_of_getLast? found
    obtain ⟨before, after, rfl⟩ := mem_differences among
    exact frequencyBetween_mem positive before after

theorem frequencies_modEq (rate : ℝ) {m : ℕ} {p : ℕ → ℝ} {angles : List ℝ}
    (length : angles.length = m + 2)
    (near : ∀ i ≤ m, p (i + 1) - p i ∈ Set.Ico (-Real.pi) Real.pi)
    (same : ∀ (i : ℕ) (inside : i < angles.length), angles[i] ≡ p i [PMOD 2 * Real.pi]) :
    frequencies rate angles =
      (List.range (m + 1)).map (fun i => (p (i + 1) - p i) * rate / (2 * Real.pi)) ++
        [(p (m + 1) - p m) * rate / (2 * Real.pi)] := by
  have whole : angles = (List.range (m + 2)).map fun i => angles.getD i 0 := by
    apply List.ext_getElem
    · simpa using length
    · intro i inside _
      simp [inside]
  have between (i : ℕ) (inside : i ≤ m) :
      frequencyBetween rate (angles.getD i 0) (angles.getD (i + 1) 0) =
        (p (i + 1) - p i) * rate / (2 * Real.pi) := by
    have found (j : ℕ) (there : j < angles.length) : angles.getD j 0 = angles[j] := by
      simp [there]
    rw [found i (by omega), found (i + 1) (by omega)]
    exact frequencyBetween_modEq rate (same i (by omega)) (same (i + 1) (by omega))
      (near i inside)
  rw [whole, frequencies_range, between m le_rfl]
  congr 1
  refine List.map_congr_left fun i inside => between i ?_
  have := List.mem_range.mp inside
  omega

end Detector

end Flowgraph
