import Flowgraph.Goertzel
import Flowgraph.Proofs.Number.Real

/-!
# What the recurrence detects

The last two values of the recurrence are one point of the complex plane, which
turns by the angle of the bin with each sample.  So its distance from zero is
that of the Fourier sum of the block, whatever the block is.
-/

namespace Flowgraph

namespace Goertzel

open Elementary

/-! ## Blocks -/

section

variable {α : Type}

/-- The samples of a block, counted from zero, of a buffer that is cut into blocks of `n`. -/
def block (n : Nat) (samples : List α) (b : Nat) : List α :=
  (samples.drop (b * n)).take n

variable [Elementary α] [Add α] [Sub α] [Mul α] [OfNat α 0] [LT α] [DecidableLT α]

theorem detect_eq (coefficient : α) (m : Nat) (samples : List α) :
    detect coefficient m samples =
      (List.range samples.length).map fun i =>
        magnitude coefficient (block (m + 1) samples (i / (m + 1))) := by
  induction samples using detect.induct m with
  | case1 => simp [detect]
  | case2 x rest ih =>
      have length : (x :: rest).length = min (m + 1) (x :: rest).length + (rest.drop m).length := by
        simp only [List.length_cons, List.length_drop]
        omega
      have first : (x :: rest.take m).length = min (m + 1) (x :: rest).length := by simp
      rw [detect, ih, length, List.range_add, List.map_append, List.map_map, first]
      congr 1
      · refine (List.eq_replicate_iff.mpr ⟨by simp, fun y mem => ?_⟩).symm
        obtain ⟨i, inside, rfl⟩ := List.mem_map.mp mem
        have zero : i / (m + 1) = 0 := by
          have := List.mem_range.mp inside
          exact Nat.div_eq_of_lt (by omega)
        simp [zero, block]
      · refine List.map_congr_left fun i inside => ?_
        -- a sample behind the first block means that the block is full
        have full : min (m + 1) (x :: rest).length = m + 1 := by
          have := List.mem_range.mp inside
          simp only [List.length_drop, List.length_cons] at this ⊢
          omega
        have next : (m + 1 + i) / (m + 1) = i / (m + 1) + 1 := Nat.add_div_left i (Nat.succ_pos m)
        have behind : i / (m + 1) * (m + 1) + (m + 1) = m + i / (m + 1) * (m + 1) + 1 := by omega
        simp only [Function.comp_apply, full, next, block, List.drop_drop, Nat.succ_mul, behind,
          List.drop_succ_cons]

/-- A buffer may be cut where a block ends. -/
theorem detect_append (coefficient : α) {m : Nat} {xs : List α} (whole : m + 1 ∣ xs.length)
    (ys : List α) :
    detect coefficient m (xs ++ ys) = detect coefficient m xs ++ detect coefficient m ys := by
  induction xs using detect.induct m with
  | case1 => simp [detect]
  | case2 x rest ih =>
      have full : m + 1 ≤ rest.length + 1 := Nat.le_of_dvd (Nat.succ_pos _) whole
      replace full : m ≤ rest.length := Nat.le_of_succ_le_succ full
      have whole' : m + 1 ∣ (rest.drop m).length := by
        have fewer : (rest.drop m).length = (x :: rest).length - (m + 1) := by simp
        rw [fewer]
        exact Nat.dvd_sub whole (Nat.dvd_refl _)
      rw [List.cons_append, detect, detect, List.take_append_of_le_length full,
        List.drop_append_of_le_length full, ih whole', List.append_assoc]

theorem detect_flatten (coefficient : α) {m : Nat} {pieces : List (List α)}
    (whole : ∀ p ∈ pieces.dropLast, m + 1 ∣ p.length) :
    detect coefficient m pieces.flatten = (pieces.map (detect coefficient m)).flatten := by
  induction pieces with
  | nil => simp [detect]
  | cons p rest ih =>
      cases rest with
      | nil => simp
      | cons q rest =>
          obtain ⟨first, others⟩ := List.forall_mem_cons.mp whole
          rw [List.flatten_cons, detect_append coefficient first, ih others]
          rfl

variable [OfNat α 2] [Div α] [NatCast α] [IntCast α] [OfScientific α]

def sweep (n : Nat) (frequency rate : α) (samples : List α) : Option (List α) :=
  match bin? n frequency rate with
  | none => none
  | some k =>
    if infinite (angularStep n k : α) then none
    else some (detect (2 * cos (angularStep n k)) (n - 1) samples)

end

/-! ## On the real numbers -/

noncomputable def turning (w : ℝ) (s : ℝ × ℝ) : ℂ :=
  s.1 - Complex.exp (-(w * Complex.I)) * s.2

/-- With each sample the point turns by the angle and is moved by the sample. -/
theorem turning_advance (w : ℝ) (s : ℝ × ℝ) (x : ℝ) :
    turning w (advance (2 * Real.cos w) s x) =
      x + Complex.exp (w * Complex.I) * turning w s := by
  have around : Complex.exp (w * Complex.I) * Complex.exp (-(w * Complex.I)) = 1 := by
    rw [← Complex.exp_add, add_neg_cancel, Complex.exp_zero]
  have both : (2 * Real.cos w : ℝ) =
      Complex.exp (w * Complex.I) + Complex.exp (-(w * Complex.I)) := by
    push_cast
    rw [Complex.two_cos, neg_mul]
  simp only [turning, advance, Complex.ofReal_sub, Complex.ofReal_add, Complex.ofReal_mul _ s.1,
    both]
  linear_combination (s.2 : ℂ) * around

/-- The power is the square of its distance from zero. -/
theorem normSq_turning (w : ℝ) (s : ℝ × ℝ) :
    Complex.normSq (turning w s) = power (2 * Real.cos w) s := by
  have whole := Real.sin_sq_add_cos_sq w
  have point : turning w s = ⟨s.1 - Real.cos w * s.2, Real.sin w * s.2⟩ := by
    apply Complex.ext <;>
      simp [turning, ← neg_mul, Complex.exp_re, Complex.exp_im]
  rw [point, Complex.normSq_mk, power]
  linear_combination s.2 * s.2 * whole

noncomputable def fourierSum (w : ℝ) (block : List ℝ) : ℂ :=
  ∑ j ∈ Finset.range block.length, (block.getD j 0 : ℂ) * Complex.exp (-(w * j * Complex.I))

theorem fourierSum_concat (w : ℝ) (block : List ℝ) (x : ℝ) :
    fourierSum w (block ++ [x]) =
      fourierSum w block + x * Complex.exp (-(w * block.length * Complex.I)) := by
  rw [fourierSum, List.length_append, List.length_singleton, Finset.sum_range_succ, fourierSum]
  congr 1
  · refine Finset.sum_congr rfl fun j inside => ?_
    rw [List.getD_eq_getElem?_getD, List.getElem?_append_left (Finset.mem_range.mp inside),
      List.getD_eq_getElem?_getD]
  · simp

/-- After a block the point is its Fourier sum, turned. -/
theorem turning_foldl (w : ℝ) (block : List ℝ) :
    Complex.exp (w * Complex.I) * turning w (block.foldl (advance (2 * Real.cos w)) (0, 0)) =
      Complex.exp (w * block.length * Complex.I) * fourierSum w block := by
  induction block using List.reverseRecOn with
  | nil => simp [turning, fourierSum]
  | append_singleton earlier x ih =>
      have next : Complex.exp (w * (earlier ++ [x]).length * Complex.I) =
          Complex.exp (w * Complex.I) * Complex.exp (w * earlier.length * Complex.I) := by
        rw [← Complex.exp_add]
        congr 1
        push_cast [List.length_append, List.length_singleton]
        ring
      have around : Complex.exp (w * earlier.length * Complex.I) *
          Complex.exp (-(w * earlier.length * Complex.I)) = 1 := by
        rw [← Complex.exp_add, add_neg_cancel, Complex.exp_zero]
      rw [List.foldl_append, List.foldl_cons, List.foldl_nil, turning_advance, fourierSum_concat,
        next]
      linear_combination Complex.exp (w * Complex.I) * ih -
        Complex.exp (w * Complex.I) * x * around

theorem normSq_fourierSum (w : ℝ) (block : List ℝ) :
    Complex.normSq (fourierSum w block) =
      (∑ j : Fin block.length, block[j] * Real.cos (w * j)) ^ 2 +
      (∑ j : Fin block.length, block[j] * Real.sin (w * j)) ^ 2 := by
  have angle (j : ℕ) : -(w * j * Complex.I : ℂ) = (-(w * j) : ℝ) * Complex.I := by
    push_cast
    ring
  have point : fourierSum w block = ⟨∑ j : Fin block.length, block[j] * Real.cos (w * j),
      -∑ j : Fin block.length, block[j] * Real.sin (w * j)⟩ := by
    rw [fourierSum, Finset.sum_range]
    apply Complex.ext
    · simp [angle, -Complex.ofReal_neg, -Complex.ofReal_mul]
    · simp [angle, -Complex.ofReal_neg, -Complex.ofReal_mul]
  rw [point, Complex.normSq_mk]
  ring

theorem power_foldl (w : ℝ) (block : List ℝ) :
    power (2 * Real.cos w) (block.foldl (advance (2 * Real.cos w)) (0, 0)) =
      (∑ j : Fin block.length, block[j] * Real.cos (w * j)) ^ 2 +
      (∑ j : Fin block.length, block[j] * Real.sin (w * j)) ^ 2 := by
  have turned := congrArg Complex.normSq (turning_foldl w block)
  have unit (x : ℝ) : Complex.normSq (Complex.exp (x * Complex.I)) = 1 := by
    rw [Complex.normSq_eq_norm_sq, Complex.norm_exp_ofReal_mul_I, one_pow]
  rw [← normSq_turning, ← normSq_fourierSum]
  rw [map_mul, map_mul, unit, one_mul, ← Complex.ofReal_natCast, ← Complex.ofReal_mul, unit,
    one_mul] at turned
  exact turned

theorem magnitude_real (w : ℝ) (block : List ℝ) :
    magnitude (2 * Real.cos w) block =
      √(power (2 * Real.cos w) (block.foldl (advance (2 * Real.cos w)) (0, 0))) := by
  have nonnegative : ¬ power (2 * Real.cos w)
      (block.foldl (advance (2 * Real.cos w)) (0, 0)) < 0 := by
    rw [power_foldl, not_lt]
    positivity
  show √(if _ then _ else _) = _
  rw [if_neg nonnegative]

theorem sweep_real (n : Nat) (frequency rate : ℝ) (samples : List ℝ) :
    sweep n frequency rate samples =
      some (detect (2 * Real.cos (2 * Real.pi * round (n * frequency / rate) / n)) (n - 1)
        samples) := by
  have bin : bin? n frequency rate = some (round (n * frequency / rate)) := by
    show some ⌊_⌋ = _
    rw [round_eq]
    norm_num
  rw [sweep, bin]
  rfl

end Goertzel

end Flowgraph
