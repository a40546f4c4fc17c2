import Flowgraph.Proofs.Number.Normal
import Mathlib.Tactic.FieldSimp

/-!
# Quotients of integers

The quotient of two integers of up to 53 bits, the first less than the second, is
off by less than half of what two such quotients with one divisor differ by.  So
doubles keep the order of fractions with a common denominator.
-/

namespace Flowgraph

namespace Number

open Float.Model (UnpackedFloat Format)
open Float.Model.UnpackedFloat

/-! ## Division -/

/-- The rest of a division is what the residual bits stand for. -/
theorem describes_accuracyOfFraction (m : ℕ) {num den : ℕ} (less : num < den) :
    Describes (.ofMantissaAndAccuracy m (accuracyOfFraction num den)) (m + num / den) := by
  have positive : (0 : ℚ) < den := by exact_mod_cast Nat.zero_lt_of_lt less
  have below : (num : ℚ) / den < 1 := by
    rw [div_lt_one positive]
    exact_mod_cast less
  unfold accuracyOfFraction
  by_cases none : num = 0
  · rw [if_pos none, none]
    show ((m : ℚ) + (0 : ℕ) / den) = m
    rw [Nat.cast_zero, zero_div, add_zero]
  rw [if_neg none]
  have some : 0 < (num : ℚ) / den := div_pos (by exact_mod_cast Nat.pos_of_ne_zero none) positive
  rcases lt_trichotomy (2 * num) den with low | half | high
  · rw [compare_lt_iff_lt.mpr low]
    have low' : (num : ℚ) / den < 1 / 2 := by
      rw [div_lt_div_iff₀ positive two_pos]
      exact_mod_cast (by omega : num * 2 < 1 * den)
    exact ⟨by show (m : ℚ) < _; linarith, by show _ < (m : ℚ) + 1 / 2; linarith⟩
  · rw [compare_eq_iff_eq.mpr half]
    have half' : (num : ℚ) / den = 1 / 2 := by
      rw [div_eq_div_iff positive.ne' two_ne_zero]
      exact_mod_cast (by omega : num * 2 = 1 * den)
    show (m : ℚ) + num / den = m + 1 / 2
    rw [half']
  · rw [compare_gt_iff_gt.mpr high]
    have high' : 1 / 2 < (num : ℚ) / den := by
      rw [div_lt_div_iff₀ two_pos positive]
      exact_mod_cast (by omega : 1 * den < num * 2)
    exact ⟨by show (m : ℚ) + 1 / 2 < _; linarith, by show _ < (m : ℚ) + 1; linarith⟩

theorem describes_quotient (n : ℕ) {d : ℕ} (positive : 0 < d) :
    Describes (.ofMantissaAndAccuracy (n / d) (accuracyOfFraction (n % d) d)) (n / d) := by
  have value : (n : ℚ) / d = (n / d : ℕ) + (n % d : ℕ) / d := by
    have some : (d : ℚ) ≠ 0 := by exact_mod_cast positive.ne'
    field_simp
    exact_mod_cast (Nat.div_add_mod n d).symm
  rw [value]
  exact describes_accuracyOfFraction (n / d) (Nat.mod_lt n positive)

/-- The quotient of two mantissas of 53 bits, with as many bits more. -/
theorem log2_quotient {m d : ℕ} (least : 2 ^ 52 ≤ m) (most : m < 2 ^ 53) (least' : 2 ^ 52 ≤ d)
    (most' : d < 2 ^ 53) : 52 ≤ (m * 2 ^ 53 / d).log2 ∧ (m * 2 ^ 53 / d).log2 ≤ 53 := by
  have positive : 0 < d := by omega
  have lower : 2 ^ 52 ≤ m * 2 ^ 53 / d := by
    rw [Nat.le_div_iff_mul_le positive]
    exact Nat.mul_le_mul least most'.le
  have upper : m * 2 ^ 53 / d < 2 ^ 54 := by
    rw [Nat.div_lt_iff_lt_mul positive]
    calc m * 2 ^ 53 < 2 ^ 53 * 2 ^ 53 := Nat.mul_lt_mul_of_pos_right most (by decide)
      _ = 2 ^ 54 * 2 ^ 52 := by decide
      _ ≤ 2 ^ 54 * d := Nat.mul_le_mul_left _ least'
  have some : m * 2 ^ 53 / d ≠ 0 := by omega
  exact ⟨(Nat.le_log2 some).mpr lower, Nat.lt_succ_iff.mp ((Nat.log2_lt some).mpr upper)⟩

theorem divCore_eq {m d : ℕ} {e f : ℤ} (long : m.log2 = 52) (long' : d.log2 = 52)
    (low : -1021 ≤ e - f) :
    divCore .binary64 m e d f =
      (m * 2 ^ 53 / d, e - f - 53, accuracyOfFraction (m * 2 ^ 53 % d) d) := by
  have wanted : Format.binary64.targetExponent
      (Float.Model.totalExponent m e - Float.Model.totalExponent d f) =
        max ((m.log2 : ℤ) + 1 + e - (d.log2 + 1 + f) - 53) (-1074) := rfl
  have target : min (e - f) (max ((m.log2 : ℤ) + 1 + e - (d.log2 + 1 + f) - 53) (-1074)) =
      e - f - 53 := by
    rw [long, long']
    omega
  have count : (e - f - (e - f - 53)).toNat = 53 := by omega
  simp only [divCore, wanted, target, count, Nat.shiftLeft_eq]

/-- What was rounded in units of a place of a fraction below one is off by half a unit at most. -/
theorem abs_scaled_sub_le {x y : ℚ} {e : ℤ} {k : ℕ} (near : |y - x / 2 ^ k| ≤ 1 / 2)
    (long : (2 : ℚ) ^ (52 + k) ≤ x) (below : x * 2 ^ e < 1) :
    |y * 2 ^ (e + k) - x * 2 ^ e| ≤ 1 / 2 ^ 54 := by
  have fraction : (52 + k : ℤ) + e < 0 := by
    have less : (2 : ℚ) ^ ((52 + k : ℤ) + e) < 2 ^ (0 : ℤ) := by
      rw [zpow_add₀ two_ne_zero, zpow_zero]
      refine lt_of_le_of_lt (mul_le_mul_of_nonneg_right ?_ (by positivity)) below
      exact_mod_cast long
    exact (zpow_lt_zpow_iff_right₀ one_lt_two).mp less
  have units : y * 2 ^ (e + k) - x * 2 ^ e = (y - x / 2 ^ k) * 2 ^ (e + k) := by
    rw [zpow_add₀ two_ne_zero, zpow_natCast]
    field_simp
  have unit : (2 : ℚ) ^ (e + k) ≤ 2 ^ (-53 : ℤ) :=
    zpow_le_zpow_right₀ one_le_two (by omega)
  rw [units, abs_mul, abs_of_pos (show (0 : ℚ) < 2 ^ (e + k) by positivity)]
  calc |y - x / 2 ^ k| * 2 ^ (e + k) ≤ 1 / 2 * 2 ^ (-53 : ℤ) :=
        mul_le_mul near unit (by positivity) (by norm_num)
    _ = 1 / 2 ^ 54 := by norm_num

/-- A quotient below one of two integers is rounded to within half a unit of the 53rd place. -/
theorem Normal.div {p q : ℚ} {u v : UnpackedFloat} (h : Normal p u) (h' : Normal q v)
    (some : 1 ≤ p) (less : p < q) (small : q < 2 ^ 53) :
    ∃ z : ℚ, |z - p / q| ≤ 1 / 2 ^ 54 ∧ Normal z (u.div .binary64 v) := by
  have below : p / q < 1 := (div_lt_one (by linarith)).mpr less
  obtain ⟨m, e, positive, rfl, least, most, -, -, rfl⟩ := h
  obtain ⟨d, f, positive', rfl, least', most', -, -, rfl⟩ := h'
  -- Integers have exponents from -52 to 0, so the quotient is far from the least double.
  have lower : 0 < e + 53 := lt_exponent most (by simpa using some)
  have upper : e + 52 < 53 := exponent_lt least (by exact_mod_cast less.trans small)
  have lower' : 0 < f + 53 := lt_exponent most' (by simpa using some.trans less.le)
  have upper' : f + 52 < 53 := exponent_lt least' (by exact_mod_cast small)
  obtain ⟨long, short⟩ := log2_quotient least most least' most'
  have scaled : (m : ℚ) * 2 ^ e / (d * 2 ^ f) = (m * 2 ^ 53 : ℕ) / d * 2 ^ (e - f - 53) := by
    rw [zpow_sub₀ two_ne_zero, zpow_sub₀ two_ne_zero]
    push_cast
    field_simp
  obtain ⟨r, near, normal⟩ := normal_roundWithAccuracy (e := e - f - 53)
    (describes_quotient (m * 2 ^ 53) positive') long (by omega) (by omega)
  rw [scaled] at below ⊢
  refine ⟨_, abs_scaled_sub_le near ?_ below, ?_⟩
  · have first : 2 ^ (52 + ((m * 2 ^ 53 / d).log2 - 52)) ≤ m * 2 ^ 53 / d := by
      rw [Nat.add_sub_cancel' long]
      refine Nat.log2_self_le fun none => ?_
      rw [none] at long
      cases long
    exact le_trans (by exact_mod_cast first) Nat.cast_div_le
  · have core := divCore_eq (log2_eq least most) (log2_eq least' most')
      (show -1021 ≤ e - f by omega)
    simp only [UnpackedFloat.div, core]
    exact normal

/-! ## Doubles that are not negative -/

/-- A double that stands for a number: positive zero, or a normal one. -/
def Stands (q : ℚ) (x : Float) : Prop :=
  q = 0 ∧ x.toModel.unpack = .zero .positive ∨ Normal q x.toModel.unpack

theorem Normal.positive {q : ℚ} {u : UnpackedFloat} (h : Normal q u) : 0 < q := by
  obtain ⟨m, e, positive, -, -, -, -, -, rfl⟩ := h
  have real : (0 : ℚ) < m := by exact_mod_cast positive
  positivity

theorem stands_one : Stands 1 1 :=
  .inr ⟨2 ^ 52, -52, by decide, rfl, by decide, by decide, by decide, by decide, by norm_num⟩

theorem Stands.lt {p q : ℚ} {x y : Float} (h : Stands p x) (h' : Stands q y) (less : p < q) :
    x < y := by
  have compared : x.toModel.unpack.compare y.toModel.unpack = some .lt := by
    rcases h with ⟨rfl, zero⟩ | normal
    · rcases h' with ⟨rfl, -⟩ | normal'
      · exact absurd less (lt_irrefl _)
      · obtain ⟨m, e, positive, same, -⟩ := normal'
        rw [zero, same]
        rfl
    · rcases h' with ⟨rfl, -⟩ | normal'
      · exact absurd less (not_lt.mpr normal.positive.le)
      · exact normal.compare_eq normal' less
  show decide ((x.toModel.unpack.compare y.toModel.unpack == some .lt) = true) = true
  rw [compared]
  rfl

theorem Stands.nonnegative {q : ℚ} {x : Float} (h : Stands q x) : 0 ≤ x := by
  have zero : (0 : Float).toModel.unpack = .zero .positive := rfl
  show decide (((0 : Float).toModel.unpack.compare x.toModel.unpack).any (·.isLE) = true) = true
  rw [zero]
  rcases h with ⟨-, same⟩ | ⟨m, e, positive, same, -⟩
  · rw [same]
    rfl
  · rw [same]
    rfl

/-! ## Fractions with a common denominator -/

variable {a b n : ℕ}

/-- A fraction below one is off by less than half of what the denominator divides one into. -/
theorem stands_div (less : a < n) (small : n < 2 ^ 53) :
    ∃ z : ℚ, |z - a / n| ≤ 1 / 2 ^ 54 ∧ Stands z (Float.ofNat a / Float.ofNat n) := by
  have denominator : Normal n (Float.ofNat n).toModel.unpack := normal_ofNat (by omega) small
  by_cases none : a = 0
  · subst none
    refine ⟨0, by simp, .inl ⟨rfl, ?_⟩⟩
    obtain ⟨m, e, positive, same, -⟩ := denominator
    have zero : (Float.ofNat 0).toModel.unpack = .zero .positive := rfl
    show (Float.Model.pack ((Float.ofNat 0).toModel.unpack.div .binary64
      (Float.ofNat n).toModel.unpack)).unpack = _
    rw [zero, same]
    show (Float.Model.pack (UnpackedFloat.zero .positive)).unpack = _
    rfl
  · obtain ⟨z, near, normal⟩ := (normal_ofNat none (less.trans small)).div denominator
      (by exact_mod_cast Nat.pos_of_ne_zero none) (by exact_mod_cast less)
      (by exact_mod_cast small)
    refine ⟨z, near, .inr ?_⟩
    show Normal z (Float.Model.pack ((Float.ofNat a).toModel.unpack.div .binary64
      (Float.ofNat n).toModel.unpack)).unpack
    rwa [normal.unpack_pack]

theorem add_lt_div (less : a < b) (some : 0 < n) (small : n < 2 ^ 53) :
    (a : ℚ) / n + 1 / 2 ^ 53 < b / n := by
  have real : (0 : ℚ) < n := by exact_mod_cast some
  have bits : (n : ℚ) < 2 ^ 53 := by exact_mod_cast small
  have unit : 1 / 2 ^ 53 < 1 / (n : ℚ) := one_div_lt_one_div_of_lt real bits
  calc (a : ℚ) / n + 1 / 2 ^ 53 < a / n + 1 / n := by linarith
    _ = ((a + 1 : ℕ) : ℚ) / n := by rw [← add_div, Nat.cast_add, Nat.cast_one]
    _ ≤ b / n := by
      gcongr
      exact less

theorem ofNat_div_lt (less : a < b) (inside : b < n) (small : n < 2 ^ 53) :
    Float.ofNat a / Float.ofNat n < Float.ofNat b / Float.ofNat n := by
  obtain ⟨x, near, stands⟩ := stands_div (less.trans inside) small
  obtain ⟨y, near', stands'⟩ := stands_div inside small
  have apart := add_lt_div less (Nat.zero_lt_of_lt inside) small
  rw [abs_le] at near near'
  exact stands.lt stands' (by linarith)

theorem ofNat_div_mem (inside : a < n) (small : n < 2 ^ 53) :
    0 ≤ Float.ofNat a / Float.ofNat n ∧ Float.ofNat a / Float.ofNat n < 1 := by
  obtain ⟨x, near, stands⟩ := stands_div inside small
  have apart := add_lt_div inside (Nat.zero_lt_of_lt inside) small
  have real : (n : ℚ) ≠ 0 := by
    exact_mod_cast (Nat.zero_lt_of_lt inside).ne'
  rw [div_self real] at apart
  rw [abs_le] at near
  exact ⟨stands.nonnegative, stands.lt stands_one (by linarith)⟩

end Number

end Flowgraph
