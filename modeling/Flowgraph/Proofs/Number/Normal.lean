import Flowgraph.Proofs.Number.Rounding
import Mathlib.Algebra.Order.Field.Power
import Mathlib.Tactic.Linarith

/-!
# Normal doubles

A positive double with a mantissa of all its 53 bits.  Rounding to such a double
is off by at most half of the last bit, integers of up to 53 bits are kept, and
such doubles compare as the numbers that they stand for.
-/

namespace Flowgraph

namespace Number

open Float.Model (UnpackedFloat Format)
open Float.Model.UnpackedFloat

/-! ## Residual bits -/

/-- A number that lies behind a mantissa where its residual bits say. -/
def Describes (m : ExtendedMantissa) (x : ℚ) : Prop :=
  match m.roundBit, m.stickyBit with
  | false, false => x = m.mantissa
  | false, true => m.mantissa < x ∧ x < m.mantissa + 1 / 2
  | true, false => x = m.mantissa + 1 / 2
  | true, true => m.mantissa + 1 / 2 < x ∧ x < m.mantissa + 1

/-- The bit that is dropped becomes the round bit, and the old round bit sticks. -/
theorem Describes.shiftRightOne {m : ExtendedMantissa} {x : ℚ} (h : Describes m x) :
    Describes m.shiftRightOne (x / 2) := by
  obtain ⟨mantissa, round, sticky⟩ := m
  have parts : (mantissa : ℚ) = 2 * (mantissa / 2 : ℕ) + (mantissa % 2 : ℕ) := by
    exact_mod_cast (Nat.div_add_mod mantissa 2).symm
  rcases Nat.mod_two_eq_zero_or_one mantissa with dropped | dropped
  all_goals
    rw [dropped] at parts
    cases round <;> cases sticky <;>
      simp [Describes, ExtendedMantissa.shiftRightOne, dropped] at h parts ⊢ <;>
      first | linarith | constructor <;> linarith

theorem Describes.shiftRight {m : ExtendedMantissa} {x : ℚ} (h : Describes m x) (k : ℕ) :
    Describes (m >>> k) (x / 2 ^ k) := by
  show Describes (k.repeat ExtendedMantissa.shiftRightOne m) _
  induction k with
  | zero => simpa [Nat.repeat] using h
  | succ k ih => simpa only [Nat.repeat, pow_succ, div_div] using ih.shiftRightOne

/-- Rounding goes to a nearest integer. -/
theorem Describes.abs_roundedMantissa_sub_le {m : ExtendedMantissa} {x : ℚ} (h : Describes m x) :
    |(m.roundedMantissa : ℚ) - x| ≤ 1 / 2 := by
  obtain ⟨mantissa, round, sticky⟩ := m
  have parity : ((mantissa % 2 : ℕ) : ℚ) = 0 ∨ ((mantissa % 2 : ℕ) : ℚ) = 1 := by
    rcases Nat.mod_two_eq_zero_or_one mantissa with even | odd
    · exact .inl (by rw [even, Nat.cast_zero])
    · exact .inr (by rw [odd, Nat.cast_one])
  rw [abs_le]
  cases round <;> cases sticky <;>
    simp only [Describes, ExtendedMantissa.roundedMantissa, ExtendedMantissa.accuracy,
      Accuracy.roundToNearestEven, Nat.cast_add, Nat.cast_one] at h ⊢ <;>
    rcases parity with even | odd <;> constructor <;> linarith

theorem describes_exact (m : ℕ) : Describes (.ofMantissaAndAccuracy m .exact) m :=
  rfl

theorem mantissa_ofMantissaAndAccuracy (m : ℕ) (accuracy : Accuracy) :
    (ExtendedMantissa.ofMantissaAndAccuracy m accuracy).mantissa = m := by
  unfold ExtendedMantissa.ofMantissaAndAccuracy
  split <;> rfl

/-! ## Rounding to 53 bits -/

/-- A positive double with a mantissa of 53 bits, and the number that it stands for. -/
def Normal (q : ℚ) (u : UnpackedFloat) : Prop :=
  ∃ (m : ℕ) (e : ℤ) (positive : 0 < m), u = .finite .positive m e positive ∧ 2 ^ 52 ≤ m ∧
    m < 2 ^ 53 ∧ -1074 ≤ e ∧ e ≤ 971 ∧ q = m * 2 ^ e

theorem shiftToTargetExponent_eq {m : ℕ} {e : ℤ} (long : 52 ≤ m.log2)
    (low : -1074 ≤ e + (m.log2 - 52 : ℕ)) (accuracy : Accuracy) :
    shiftToTargetExponent .binary64 m e accuracy =
      (ExtendedMantissa.ofMantissaAndAccuracy m accuracy >>> (m.log2 - 52),
        e + (m.log2 - 52 : ℕ)) := by
  have target : Format.binary64.targetExponent (Float.Model.totalExponent m e) =
      max ((m.log2 : ℤ) + 1 + e - 53) (-1074) := rfl
  have count : (max ((m.log2 : ℤ) + 1 + e - 53) (-1074) - e).toNat = m.log2 - 52 := by omega
  simp only [shiftToTargetExponent, shiftToExponent, target, count]

/-- A mantissa that was rounded to 53 bits, or up to the next power of two. -/
theorem normal_round_again {r : ℕ} {e : ℤ} (least : 2 ^ 52 ≤ r) (most : r ≤ 2 ^ 53)
    (low : -1074 ≤ e) (high : e ≤ 970) :
    let shifted := shiftToTargetExponent .binary64 r e .exact
    2 ^ 52 ≤ shifted.1.mantissa ∧ shifted.1.mantissa < 2 ^ 53 ∧ -1074 ≤ shifted.2 ∧
      shifted.2 ≤ 971 ∧ (r : ℚ) * 2 ^ e = shifted.1.mantissa * 2 ^ shifted.2 := by
  have some : r ≠ 0 := by omega
  have long : 52 ≤ r.log2 := (Nat.le_log2 some).mpr least
  have short : r.log2 ≤ 53 := Nat.lt_succ_iff.mp ((Nat.log2_lt some).mpr (by omega))
  rw [shiftToTargetExponent_eq long (by omega)]
  dsimp only
  rw [mantissa_shiftRight, mantissa_ofMantissaAndAccuracy]
  rcases Nat.lt_or_ge r.log2 53 with fits | full
  · have none : r.log2 - 52 = 0 := by omega
    have small : r < 2 ^ 53 := (Nat.log2_lt some).mp fits
    simp only [none, pow_zero, Nat.div_one, Nat.cast_zero, add_zero, and_true]
    exact ⟨least, small, low, by omega⟩
  · have one : r.log2 - 52 = 1 := by omega
    have power : r = 2 ^ 53 := by
      have := (Nat.le_log2 some).mp full
      omega
    simp only [one, pow_one, Nat.cast_one]
    refine ⟨by omega, by omega, by omega, by omega, ?_⟩
    rw [power, zpow_add₀ two_ne_zero, zpow_one]
    norm_num
    ring

/--
Rounding a mantissa of 53 bits or more keeps the first 53, up to half of the last
one.  What is dropped before may only show in the residual bits.
-/
theorem normal_roundWithAccuracy {m : ℕ} {e : ℤ} {accuracy : Accuracy} {q : ℚ}
    (describes : Describes (.ofMantissaAndAccuracy m accuracy) q) (long : 52 ≤ m.log2)
    (low : -1074 ≤ e + (m.log2 - 52 : ℕ)) (high : e + (m.log2 - 52 : ℕ) ≤ 970) :
    ∃ r : ℕ, |(r : ℚ) - q / 2 ^ (m.log2 - 52)| ≤ 1 / 2 ∧
      Normal (r * 2 ^ (e + (m.log2 - 52 : ℕ)))
        (roundWithAccuracy .binary64 .positive m e accuracy) := by
  generalize count : m.log2 - 52 = k at *
  have some : m ≠ 0 := by
    rintro rfl
    simp at long
  have rounded := (describes.shiftRight k).abs_roundedMantissa_sub_le
  obtain ⟨lower, upper⟩ :=
    roundedMantissa_bounds (ExtendedMantissa.ofMantissaAndAccuracy m accuracy >>> k)
  rw [mantissa_shiftRight, mantissa_ofMantissaAndAccuracy] at lower upper
  have least : 2 ^ 52 ≤ m / 2 ^ k := by
    rw [Nat.le_div_iff_mul_le (by positivity), ← pow_add, ← Nat.le_log2 some]
    omega
  have most : m / 2 ^ k < 2 ^ 53 := by
    rw [Nat.div_lt_iff_lt_mul (by positivity), ← pow_add, ← Nat.log2_lt some]
    omega
  have again := normal_round_again (e := e + k) (least.trans lower) (by omega) low high
  refine ⟨_, rounded, ?_⟩
  unfold roundWithAccuracy
  rw [shiftToTargetExponent_eq long (by omega), count]
  dsimp only at again ⊢
  obtain ⟨least', most', low', high', same⟩ := again
  rw [dif_neg (by omega)]
  exact ⟨_, _, _, rfl, least', most', low', high', same⟩

/-- What 53 bits can hold is not rounded. -/
theorem normal_roundWithAccuracy_exact {m n : ℕ} {e : ℤ} (long : 52 ≤ m.log2)
    (low : -1074 ≤ e + (m.log2 - 52 : ℕ)) (high : e + (m.log2 - 52 : ℕ) ≤ 970)
    (whole : m = n * 2 ^ (m.log2 - 52)) :
    Normal (m * 2 ^ e) (roundWithAccuracy .binary64 .positive m e .exact) := by
  obtain ⟨r, near, normal⟩ := normal_roundWithAccuracy (describes_exact m) long low high
  generalize m.log2 - 52 = k at *
  have integral : (m : ℚ) / 2 ^ k = n := by
    rw [whole]
    push_cast
    rw [mul_div_cancel_right₀ _ (by positivity)]
  have same : r = n := by
    rw [integral, abs_le] at near
    have above : (r : ℚ) < n + 1 := by linarith
    have below : (n : ℚ) < r + 1 := by linarith
    norm_cast at above below
    omega
  have value : (m : ℚ) * 2 ^ e = r * 2 ^ (e + k) := by
    rw [same, whole, zpow_add₀ two_ne_zero, zpow_natCast]
    push_cast
    ring
  rwa [value]

/-! ## Size -/

theorem two_zpow_le {m : ℕ} (least : 2 ^ 52 ≤ m) (e : ℤ) : (2 : ℚ) ^ (e + 52) ≤ m * 2 ^ e := by
  have real : (2 ^ 52 : ℚ) ≤ m := by exact_mod_cast least
  rw [zpow_add₀ two_ne_zero, mul_comm]
  exact mul_le_mul_of_nonneg_right real (by positivity)

theorem exponent_lt {m : ℕ} {e k : ℤ} (least : 2 ^ 52 ≤ m) (less : (m : ℚ) * 2 ^ e < 2 ^ k) :
    e + 52 < k :=
  (zpow_lt_zpow_iff_right₀ one_lt_two).mp ((two_zpow_le least e).trans_lt less)

theorem lt_exponent {m : ℕ} {e k : ℤ} (most : m < 2 ^ 53) (more : (2 : ℚ) ^ k ≤ m * 2 ^ e) :
    k < e + 53 := by
  have real : (m : ℚ) < 2 ^ 53 := by exact_mod_cast most
  have high : (m : ℚ) * 2 ^ e < 2 ^ (e + 53) := by
    rw [zpow_add₀ two_ne_zero, mul_comm]
    exact mul_lt_mul_of_pos_left real (by positivity)
  exact (zpow_lt_zpow_iff_right₀ one_lt_two).mp (more.trans_lt high)

theorem log2_eq {m : ℕ} (least : 2 ^ 52 ≤ m) (most : m < 2 ^ 53) : m.log2 = 52 := by
  have some : m ≠ 0 := by omega
  have lower := (Nat.le_log2 some).mpr least
  have upper := (Nat.log2_lt some).mpr most
  omega

theorem Normal.compare_eq {p q : ℚ} {u v : UnpackedFloat} (h : Normal p u) (h' : Normal q v)
    (less : p < q) : u.compare v = some .lt := by
  obtain ⟨m, e, positive, rfl, least, most, -, -, rfl⟩ := h
  obtain ⟨m', e', positive', rfl, least', most', -, -, rfl⟩ := h'
  simp only [UnpackedFloat.compare, Option.some.injEq]
  rcases lt_trichotomy e e' with before | rfl | behind
  · rw [compare_lt_iff_lt.mpr before]
    rfl
  · have fewer : m < m' := by
      have scaled := lt_of_mul_lt_mul_right less (by positivity)
      exact_mod_cast scaled
    rw [compare_eq_iff_eq.mpr rfl, compare_lt_iff_lt.mpr fewer]
    rfl
  · have bound := lt_exponent most' ((two_zpow_le least e).trans less.le)
    omega

/-! ## Packing -/

theorem sign_unpack_packComponents (s : Sign) (exponent : BitVec 11) (mantissa : BitVec 52) :
    Sign.ofBitVec (unpackSign (packComponents .binary64 s exponent mantissa)) = s := by
  simp only [unpackSign, packComponents, BitVec.extractLsb]
  rw [BitVec.extractLsb'_append_eq_of_le (by decide),
    BitVec.extractLsb'_append_eq_of_le (by decide)]
  cases s <;> rfl

/-- The first bit of a mantissa is implied. -/
theorem toNat_implied_append {m : ℕ} (least : 2 ^ 52 ≤ m) (most : m < 2 ^ 53) :
    (1#1 ++ BitVec.ofNat 52 m).toNat = m := by
  have rest : m % 2 ^ 52 < 2 ^ 52 := Nat.mod_lt _ (by decide)
  simp only [BitVec.toNat_append, BitVec.toNat_ofNat]
  rw [← Nat.shiftLeft_add_eq_or_of_lt rest, Nat.shiftLeft_eq]
  omega

/-- What is written to the bits of a double is read from them again. -/
theorem Normal.unpack_pack {q : ℚ} {u : UnpackedFloat} (h : Normal q u) :
    (Float.Model.pack u).unpack = u := by
  obtain ⟨m, e, positive, rfl, least, most, low, high, -⟩ := h
  have bias : Format.binary64.exponentBias = 1023 := rfl
  have bits : Format.binary64.mantissaBits = 53 := rfl
  have long : m.log2 + 1 = 53 := by rw [log2_eq least most]
  show unpack .binary64 (pack .binary64 _) = _
  have inside : ¬ 2 ^ 11 ≤ (e + 1023 + 52).toNat + 1 := by omega
  have exponent : (BitVec.ofNat 11 (e + 1023 + 52).toNat).toNat = (e + 1023 + 52).toNat := by
    rw [BitVec.toNat_ofNat, Nat.mod_eq_of_lt (by omega)]
  have some : BitVec.ofNat 11 (e + 1023 + 52).toNat ≠ 0#11 := by
    intro none
    have zero := congrArg BitVec.toNat none
    rw [exponent, BitVec.toNat_zero] at zero
    omega
  have number : BitVec.ofNat 11 (e + 1023 + 52).toNat ≠ -1#11 := by
    intro full
    have ones := congrArg BitVec.toNat full
    rw [exponent] at ones
    simp at ones
    omega
  simp only [pack, bias, bits, Nat.cast_ofNat, if_neg inside, if_pos long, unpack,
    unpackMantissa_packComponents, unpackExponent_packComponents, sign_unpack_packComponents,
    if_neg some, if_neg number, exponent, toNat_implied_append least most]
  congr 1
  omega

/-! ## Integers -/

theorem log2_mul_two_pow {m : ℕ} (some : m ≠ 0) (k : ℕ) : (m * 2 ^ k).log2 = m.log2 + k := by
  have below : m * 2 ^ k < 2 ^ (m.log2 + k + 1) := by
    rw [add_right_comm, pow_add]
    exact Nat.mul_lt_mul_of_pos_right Nat.lt_log2_self (by positivity)
  have upper := (Nat.log2_lt (by positivity)).mpr below
  have lower := le_log2_mul_two_pow some k
  omega

theorem normal_round {n : ℕ} (some : n ≠ 0) (small : n < 2 ^ 53) :
    Normal n (UnpackedFloat.round .binary64 .positive n 0) := by
  have short : n.log2 < 53 := (Nat.log2_lt some).mpr small
  have target : Format.binary64.targetExponent (Float.Model.totalExponent n 0) =
      max ((n.log2 : ℤ) + 1 + 0 - 53) (-1074) := rfl
  have count : (0 - max ((n.log2 : ℤ) + 1 + 0 - 53) (-1074)).toNat = 52 - n.log2 := by omega
  simp only [UnpackedFloat.round, decreaseExponent, target, count, Nat.shiftLeft_eq]
  generalize shift : 52 - n.log2 = k
  have long : (n * 2 ^ k).log2 = 52 := by
    rw [log2_mul_two_pow some]
    omega
  have kept := normal_roundWithAccuracy_exact (m := n * 2 ^ k) (n := n * 2 ^ k) (e := -k)
    (by omega) (by omega) (by omega) (by rw [long]; simp)
  rwa [zpow_neg, zpow_natCast, Nat.cast_mul, Nat.cast_pow, Nat.cast_two,
    mul_inv_cancel_right₀ (by positivity), ← zero_sub] at kept

theorem Normal.mul_one {q : ℚ} {u : UnpackedFloat} (h : Normal q u) (small : q < 2 ^ 53) :
    Normal q (u.mul .binary64 (1 : Float).toModel.unpack) := by
  have one : (1 : Float).toModel.unpack = .finite .positive (2 ^ 52) (-52) (by decide) := rfl
  obtain ⟨m, e, positive, rfl, least, most, low, high, rfl⟩ := h
  have integral : e + 52 < 53 := exponent_lt least (by exact_mod_cast small)
  have long : (m * 2 ^ 52).log2 = 104 := by
    rw [log2_mul_two_pow positive.ne', log2_eq least most]
  have kept := normal_roundWithAccuracy_exact (m := m * 2 ^ 52) (n := m) (e := e + -52)
    (by omega) (by omega) (by omega) (by rw [long])
  have value : ((m * 2 ^ 52 : ℕ) : ℚ) * 2 ^ (e + -52) = m * 2 ^ e := by
    rw [zpow_add₀ two_ne_zero]
    push_cast
    ring
  rw [value] at kept
  rw [one]
  exact kept

/-- The double of a positive integer of at most 53 bits is that integer. -/
theorem normal_ofNat {n : ℕ} (some : n ≠ 0) (small : n < 2 ^ 53) :
    Normal n (Float.ofNat n).toModel.unpack := by
  show Normal n (Float.ofScientific n false 0).toModel.unpack
  have counted : n.toUInt64.toNat = n := by
    simp [Nat.toUInt64]
    omega
  have integer : Normal n n.toUInt64.toFloat.toModel.unpack := by
    have positive : compare (n : ℤ) 0 = .gt := by
      rw [compare_gt_iff_gt]
      omega
    have read : UnpackedFloat.ofUInt64 .binary64 n.toUInt64 = .round .binary64 .positive n 0 := by
      simp only [UnpackedFloat.ofUInt64, UnpackedFloat.ofNat, UnpackedFloat.ofInt,
        UnpackedFloat.normalize, counted, positive, Int.toNat_natCast]
    have rounded := normal_round some small
    show Normal n (Float.Model.pack (UnpackedFloat.ofUInt64 .binary64 n.toUInt64)).unpack
    rwa [read, rounded.unpack_pack]
  have scaled := integer.mul_one (by exact_mod_cast small)
  have packed : Normal n (n.toUInt64.toFloat * 1).toModel.unpack := by
    show Normal n (Float.Model.pack (n.toUInt64.toFloat.toModel.unpack.mul .binary64 _)).unpack
    rwa [scaled.unpack_pack]
  unfold Float.ofScientific
  rw [dif_pos ⟨small, Nat.zero_le 22⟩]
  exact packed

end Number

end Flowgraph
