import Flowgraph.Spectrum.Fourier
import Flowgraph.Spectrum.PowerOfTwo
import Mathlib.Algebra.Order.Ring.Int
import Mathlib.Order.Bounds.Defs
import Mathlib.Tactic.Positivity

/-!
# Transforms of a power of two

The sizes that a transform accepts are the powers of two, and for these it gives
half as many bins as the size and one more, whatever the samples.  The size that
it chooses itself is the least of them that has room for all samples.
-/

namespace Flowgraph

namespace Spectrum

theorem isPowerOfTwo_iff {n : Int} : isPowerOfTwo n = true ↔ ∃ k : Nat, n = 2 ^ k := by
  unfold isPowerOfTwo
  rw [Bool.and_eq_true, decide_eq_true_eq, decide_eq_true_eq]
  constructor
  · rintro ⟨positive, single⟩
    obtain ⟨k, power⟩ :=
      (Nat.and_sub_one_eq_zero_iff_isPowerOfTwo (show n.toNat ≠ 0 by omega)).mp single
    refine ⟨k, ?_⟩
    rw [← Int.toNat_of_nonneg positive.le, power]
    push_cast
    rfl
  · rintro ⟨k, rfl⟩
    have natural : ((2 : Int) ^ k).toNat = 2 ^ k := by
      rw [← Int.toNat_natCast (2 ^ k)]
      push_cast
      rfl
    refine ⟨by positivity, ?_⟩
    rw [natural]
    exact (Nat.and_sub_one_eq_zero_iff_isPowerOfTwo (by positivity)).mpr ⟨k, rfl⟩

theorem isPowerOfTwo_natCast_iff {n : Nat} : isPowerOfTwo n = true ↔ n.isPowerOfTwo := by
  rw [isPowerOfTwo_iff]
  exact exists_congr fun k => by norm_cast

/-- The bits of the number below one that is no power of two count up to the next power. -/
theorem isLeast_nextPowerOfTwo (n : Int) :
    IsLeast {p : Nat | p.isPowerOfTwo ∧ max n 1 ≤ p} (nextPowerOfTwo n) := by
  unfold nextPowerOfTwo
  split
  · next few => exact ⟨⟨⟨0, rfl⟩, by omega⟩, fun p ⟨_, enough⟩ => by omega⟩
  · next many =>
      have below : (n - 1).toNat ≠ 0 := by omega
      have lower : 2 ^ Nat.log2 (n - 1).toNat ≤ (n - 1).toNat := Nat.log2_self_le below
      have upper : (n - 1).toNat < 2 ^ (Nat.log2 (n - 1).toNat + 1) := Nat.lt_log2_self
      refine ⟨⟨⟨_, rfl⟩, ?_⟩, ?_⟩
      · show max n 1 ≤ ((2 ^ (Nat.log2 (n - 1).toNat + 1) : Nat) : Int)
        omega
      · rintro p ⟨⟨k, rfl⟩, enough⟩
        have more : 2 ^ Nat.log2 (n - 1).toNat < 2 ^ k := by omega
        exact Nat.pow_le_pow_right two_pos ((Nat.pow_lt_pow_iff_right one_lt_two).mp more)

theorem le_nextPowerOfTwo (n : Nat) : n ≤ nextPowerOfTwo n := by
  have enough := (isLeast_nextPowerOfTwo n).1.2
  omega

/-- The half of a power of two would be too small already. -/
theorem nextPowerOfTwo_lt {n : Nat} (some : 0 < n) : nextPowerOfTwo n < 2 * n := by
  obtain ⟨⟨⟨k, power⟩, -⟩, least⟩ := isLeast_nextPowerOfTwo n
  rw [power] at least ⊢
  cases k with
  | zero => omega
  | succ k =>
      rw [Nat.pow_succ]
      by_contra large
      have half := least (show 2 ^ k ∈ _ from ⟨⟨k, rfl⟩, by omega⟩)
      rw [Nat.pow_succ] at half
      have := Nat.two_pow_pos k
      omega

/-! ## Sizes given by a value -/

theorem isPowerOfTwoValue_int (n : Int) :
    isPowerOfTwoValue (.int n) = .ok (isPowerOfTwo n) := by
  have same : (Number.int n == .int n) = true := by
    show Number.same (.int n) (.int n) = true
    simp [Number.same, Number.compare?]
  simp only [isPowerOfTwoValue, Value.toInt, Value.number?, Number.toInt, same, Bool.and_true]

theorem sizeOf_of_not_given {given : Value} (absent : given.isGiven = false) (length : Nat) :
    sizeOf given length = .ok (nextPowerOfTwo length) := by
  simp only [sizeOf, absent, Bool.not_false, if_true]
  rfl

/-- A size that is given is taken or refused, whatever there is to transform. -/
theorem sizeOf_of_given {given : Value} (present : given.isGiven = true) {n : Int}
    (read : given.toInt = .ok n) (length : Nat) :
    sizeOf given length =
      if isPowerOfTwo n then .ok n.toNat else .error (given.named .transformSize) := by
  simp only [sizeOf, present, read, Bool.not_true, Bool.false_eq_true, if_false, bind, Except.bind]
  rfl

/-! ## Bins -/

section

variable {α : Type} [OfNat α 0]

@[simp]
theorem length_fit (n : Nat) (samples : List α) : (fit n samples).length = n := by
  simp only [fit, List.length_append, List.length_take, List.length_replicate]
  omega

theorem fit_fit (n : Nat) (samples : List α) : fit n (fit n samples) = fit n samples := by
  have length := length_fit n samples
  rw [fit, length, Nat.sub_self, List.replicate_zero, List.append_nil,
    List.take_of_length_le length.le]

variable [Elementary α] [NatCast α] [Add α] [Sub α] [Mul α] [Div α] [Neg α] [OfNat α 2]

theorem length_binsOfFours (levels : Nat) (samples : List α) :
    (binsOfFours levels samples).length = Nat.pow 4 levels / 2 + 1 := by
  cases levels with
  | zero => rfl
  | succ levels =>
      rw [binsOfFours, List.length_map, List.length_range]
      show 2 * 4 ^ levels + 1 = 4 ^ (levels + 1) / 2 + 1
      omega

theorem length_bins (k : Nat) (samples : List α) :
    (bins (2 ^ k) samples).length = 2 ^ k / 2 + 1 := by
  have fours : 2 ^ k = 4 ^ (k / 2) * 2 ^ (k % 2) := by
    rw [show 4 = 2 ^ 2 from rfl, ← pow_mul, ← pow_add, Nat.div_add_mod]
  unfold bins
  simp only [Nat.log2_two_pow]
  rcases Nat.mod_two_eq_zero_or_one k with even | odd
  · rw [if_pos even, length_binsOfFours, fours, even, pow_zero, mul_one]
    rfl
  · rw [if_neg (by omega), List.length_map, List.length_range, fours, odd, pow_one,
      Nat.mul_div_cancel _ two_pos]
    rfl

/-- Only what fits into a transform is transformed. -/
theorem bins_fit (size : Nat) (samples : List α) :
    bins size (fit size samples) = bins size samples := by
  unfold bins
  rw [fit_fit]

end

end Spectrum

end Flowgraph
