import Flowgraph.Audio.Level
import Flowgraph.Proofs.Number.Real

/-!
# Levels of exact samples

On the real numbers all samples of a file are scaled by one factor, which leaves
them alone unless one is beyond full scale, and their levels are nearest to
what comes of that.  No level is ever cut off.
-/

namespace Flowgraph

namespace Audio

open Elementary

section

variable {α : Type} [Elementary α] [OfNat α 0] [Add α] [Mul α] [Div α] [Neg α]
  [LT α] [DecidableLT α] [LE α] [DecidableLE α] [OfNat α 1] [OfScientific α] [OfNat α 32767]

theorem length_levels (samples : List α) : (levels samples).length = samples.length := by
  unfold levels normalize
  dsimp only
  split <;> simp

omit [Add α] [Mul α] [Div α] [Neg α] [LE α] [DecidableLE α] [OfNat α 1] [OfScientific α]
  [OfNat α 32767] in
theorem level_bounds (x : α) : -32768 ≤ level x ∧ level x ≤ 32767 := by
  unfold level
  split
  · omega
  · split_ifs <;> decide

theorem levels_bounds (samples : List α) : ∀ v ∈ levels samples, -32768 ≤ v ∧ v ≤ 32767 := by
  intro v mem
  obtain ⟨x, -, rfl⟩ := List.mem_map.mp mem
  exact level_bounds _

end

/-! ## The peak -/

theorem foldl_maximum_le_iff {top bound : ℝ} {samples : List ℝ} :
    samples.foldl (fun top x => maximum top (magnitude x)) top ≤ bound ↔
      top ≤ bound ∧ ∀ x ∈ samples, |x| ≤ bound := by
  induction samples generalizing top with
  | nil => simp
  | cons x rest ih =>
      rw [List.foldl_cons, ih, maximum_real, magnitude_real, max_le_iff, List.forall_mem_cons,
        and_assoc]

theorem peak_le_iff {bound : ℝ} {samples : List ℝ} :
    peak samples ≤ bound ↔ 0 ≤ bound ∧ ∀ x ∈ samples, |x| ≤ bound :=
  foldl_maximum_le_iff

theorem abs_le_peak {samples : List ℝ} {x : ℝ} (mem : x ∈ samples) : |x| ≤ peak samples :=
  (peak_le_iff.mp le_rfl).2 x mem

/-- Some sample is of the size of a number, and none is larger. -/
def Loudest (samples : List ℝ) (top : ℝ) : Prop :=
  (∃ x ∈ samples, |x| = top) ∧ ∀ x ∈ samples, |x| ≤ top

theorem Loudest.peak_eq {samples : List ℝ} {top : ℝ} (loudest : Loudest samples top) :
    peak samples = top := by
  obtain ⟨⟨x, mem, rfl⟩, bound⟩ := loudest
  exact le_antisymm (peak_le_iff.mpr ⟨abs_nonneg x, bound⟩) (abs_le_peak mem)

/-! ## One factor for all samples -/

noncomputable def gain (top : ℝ) : ℝ :=
  if 1 < top then 0.98 / top else 1

theorem gain_pos (top : ℝ) : 0 < gain top := by
  unfold gain
  split
  · next beyond => exact div_pos (by norm_num) (by linarith)
  · exact one_pos

theorem normalize_real (samples : List ℝ) :
    normalize samples = samples.map (· * gain (peak samples)) := by
  unfold normalize gain
  dsimp only
  split
  · refine List.map_congr_left fun x _ => ?_
    ring
  · simp

theorem abs_mul_gain_le {top x : ℝ} (bounded : |x| ≤ top) : |x * gain top| ≤ 1 := by
  rw [abs_mul, abs_of_pos (gain_pos top)]
  unfold gain
  split
  · next beyond =>
      have positive : 0 < top := by linarith
      have cancelled : top * (0.98 / top) = 0.98 := mul_div_cancel₀ _ positive.ne'
      calc |x| * (0.98 / top) ≤ top * (0.98 / top) :=
            mul_le_mul_of_nonneg_right bounded (div_nonneg (by norm_num) positive.le)
        _ ≤ 1 := by
            rw [cancelled]
            norm_num
  · next inside =>
      rw [mul_one]
      exact bounded.trans (not_lt.mp inside)

/-! ## The level of one sample -/

/-- The level of a sample if the largest sample is `top`, before anything is cut off. -/
noncomputable def quantize (top x : ℝ) : ℤ :=
  Number.roundEven (x * gain top * 32767)

theorem nearest_quantize (top x : ℝ) : Number.Nearest (x * gain top * 32767) (quantize top x) :=
  Number.nearest_roundEven _

theorem monotone_quantize (top : ℝ) : Monotone (quantize top) := by
  intro x y le
  refine Number.monotone_roundEven (mul_le_mul_of_nonneg_right ?_ (by norm_num))
  exact mul_le_mul_of_nonneg_right le (gain_pos top).le

theorem quantize_neg (top x : ℝ) : quantize top (-x) = -quantize top x := by
  rw [quantize, neg_mul, neg_mul, Number.roundEven_neg, quantize]

theorem quantize_le {top x : ℝ} (bounded : |x| ≤ top) : quantize top x ≤ 32767 := by
  have inside := (abs_le.mp (abs_mul_gain_le bounded)).2
  have rounded := Number.monotone_roundEven
    (mul_le_mul_of_nonneg_right inside (by norm_num : (0 : ℝ) ≤ 32767))
  have full : Number.roundEven (1 * 32767) = 32767 := by
    rw [one_mul]
    exact_mod_cast Number.roundEven_intCast 32767
  rwa [full] at rounded

theorem quantize_mem {top x : ℝ} (bounded : |x| ≤ top) :
    -32767 ≤ quantize top x ∧ quantize top x ≤ 32767 := by
  have mirrored : quantize top (-x) ≤ 32767 := quantize_le (by rwa [abs_neg])
  rw [quantize_neg] at mirrored
  exact ⟨by omega, quantize_le bounded⟩

/-! ## The levels of all samples -/

/-- Cutting off has no effect. -/
theorem level_eq {top x : ℝ} (bounded : |x| ≤ top) :
    level (x * gain top * 32767) = quantize top x := by
  obtain ⟨low, high⟩ := quantize_mem bounded
  show max (-32768) (min 32767 (quantize top x)) = quantize top x
  omega

theorem levels_eq (samples : List ℝ) :
    levels samples = samples.map (quantize (peak samples)) := by
  rw [levels, normalize_real, List.map_map]
  exact List.map_congr_left fun x mem => level_eq (abs_le_peak mem)

theorem mem_levels_bounds {samples : List ℝ} {v : ℤ} (mem : v ∈ levels samples) :
    -32767 ≤ v ∧ v ≤ 32767 := by
  rw [levels_eq, List.mem_map] at mem
  obtain ⟨x, mem, rfl⟩ := mem
  exact quantize_mem (abs_le_peak mem)

end Audio

end Flowgraph
