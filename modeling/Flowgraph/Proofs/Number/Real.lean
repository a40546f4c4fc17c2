import Flowgraph.Scalar
import Mathlib.Analysis.SpecialFunctions.Complex.Arg
import Mathlib.Analysis.SpecialFunctions.Log.Base

/-!
# Exact sample arithmetic

The functions of a sample type on the real numbers.  Nothing is infinite there,
and every real number has integers next to it.
-/

namespace Flowgraph

namespace Number

noncomputable def truncate (x : ℝ) : ℤ :=
  if 0 ≤ x then ⌊x⌋ else ⌈x⌉

noncomputable def roundEven (x : ℝ) : ℤ :=
  if Int.fract x + Int.fract x < 1 ∨ Int.fract x + Int.fract x = 1 ∧ Even ⌊x⌋ then ⌊x⌋
  else ⌊x⌋ + 1

/-- What is left of a number without its integer part is less than one on either side. -/
theorem abs_sub_truncate_lt (x : ℝ) : |x - truncate x| < 1 := by
  unfold truncate
  split
  · rw [abs_lt]
    constructor <;> linarith [Int.floor_le x, Int.lt_floor_add_one x]
  · rw [abs_lt]
    constructor <;> linarith [Int.le_ceil x, Int.ceil_lt_add_one x]

/-! ## Rounding -/

def Nearest (x : ℝ) (n : ℤ) : Prop :=
  |x - n| + |x - n| < 1 ∨ |x - n| + |x - n| = 1 ∧ Even n

theorem Nearest.error_le {x : ℝ} {n : ℤ} (near : Nearest x n) : |x - n| ≤ 1 / 2 := by
  rcases near with inside | ⟨half, -⟩ <;> linarith

theorem nearest_roundEven (x : ℝ) : Nearest x (roundEven x) := by
  have split := Int.floor_add_fract x
  have fract := Int.fract_nonneg x
  have below : Int.fract x < 1 := Int.fract_lt_one x
  unfold roundEven
  split_ifs with down
  · have rest : |x - ⌊x⌋| = Int.fract x := by
      rw [abs_of_nonneg] <;> linarith
    rw [Nearest, rest]
    exact down
  · have rest : |x - (⌊x⌋ + 1 : ℤ)| = 1 - Int.fract x := by
      push_cast
      rw [abs_of_nonpos] <;> linarith
    simp only [not_or, not_and, not_lt] at down
    obtain ⟨more, odd⟩ := down
    rw [Nearest, rest]
    rcases more.lt_or_eq with less | half
    · exact .inl (by linarith)
    · exact .inr ⟨by linarith, (Int.not_even_iff_odd.mp (odd half.symm)).add_one⟩

theorem Nearest.le {x y : ℝ} {m n : ℤ} (left : Nearest x m) (right : Nearest y n) (le : x ≤ y) :
    m ≤ n := by
  by_contra less
  have apart : (n : ℝ) + 1 ≤ m := by exact_mod_cast Int.add_one_le_iff.mpr (not_le.mp less)
  have lower := (abs_le.mp left.error_le).1
  have upper := (abs_le.mp right.error_le).2
  -- both are half away from one number between neighbours, which cannot both be even
  have next : m = n + 1 := by
    have : (m : ℝ) = n + 1 := by linarith
    exact_mod_cast this
  subst next
  push_cast at lower
  rcases left with inside | ⟨-, even⟩
  · have := neg_abs_le (x - (n + 1 : ℤ))
    push_cast at this inside
    linarith
  · rcases right with inside | ⟨-, even'⟩
    · have := le_abs_self (y - n)
      linarith
    · exact (Int.even_add_one.mp even) even'

theorem roundEven_eq_iff {x : ℝ} {n : ℤ} : roundEven x = n ↔ Nearest x n := by
  constructor
  · rintro rfl
    exact nearest_roundEven x
  · intro near
    exact le_antisymm ((nearest_roundEven x).le near le_rfl) (near.le (nearest_roundEven x) le_rfl)

theorem monotone_roundEven : Monotone roundEven :=
  fun x y le => (nearest_roundEven x).le (nearest_roundEven y) le

theorem roundEven_neg (x : ℝ) : roundEven (-x) = -roundEven x := by
  have mirrored : |(-x : ℝ) - (-roundEven x : ℤ)| = |x - roundEven x| := by
    rw [← abs_neg]
    push_cast
    congr 1
    ring
  rw [roundEven_eq_iff, Nearest, mirrored, even_neg]
  exact nearest_roundEven x

theorem roundEven_intCast (n : ℤ) : roundEven n = n :=
  roundEven_eq_iff.mpr (.inl (by norm_num))

end Number

noncomputable instance : Elementary ℝ where
  pi := Real.pi
  sin := Real.sin
  cos := Real.cos
  sqrt := Real.sqrt
  log10 := Real.logb 10
  angle y x := Complex.arg ⟨x, y⟩
  hypot x y := √(x * x + y * y)
  remainder x y := x - y * Number.truncate (x / y)
  floor? x := some ⌊x⌋
  round? x := some (Number.roundEven x)
  infinite _ := false

namespace Elementary

@[simp]
theorem infinite_real (x : ℝ) : infinite x = false :=
  rfl

theorem magnitude_real (x : ℝ) : magnitude x = |x| := by
  unfold magnitude
  split
  · next negative => exact (abs_of_neg negative).symm
  · next positive => exact (abs_of_nonneg (not_lt.mp positive)).symm

theorem maximum_real (x y : ℝ) : maximum x y = max x y := by
  unfold maximum
  split
  · next less => exact (max_eq_right less.le).symm
  · next more => rw [if_pos (not_lt.mp more), max_eq_left (not_lt.mp more)]

/-- The remainder is less than the divisor on either side, and whole divisors are missing. -/
theorem remainder_spec (x : ℝ) {y : ℝ} (positive : 0 < y) :
    |remainder x y| < y ∧ ∃ z : ℤ, x = remainder x y + z • y := by
  have left : remainder x y = y * (x / y - Number.truncate (x / y)) := by
    show x - y * Number.truncate (x / y) = _
    rw [mul_sub, mul_div_cancel₀ x positive.ne']
  constructor
  · rw [left, abs_mul, abs_of_pos positive]
    exact mul_lt_of_lt_one_right positive (Number.abs_sub_truncate_lt _)
  · refine ⟨Number.truncate (x / y), ?_⟩
    show x = x - y * Number.truncate (x / y) + Number.truncate (x / y) • y
    rw [zsmul_eq_mul, mul_comm y, sub_add_cancel]

end Elementary

end Flowgraph
