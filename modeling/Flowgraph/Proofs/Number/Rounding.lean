import Flowgraph.Number.Basic
import Flowgraph.Proofs.Number.Vanishing

/-!
# Rounding keeps integers off zero

An integer other than zero is a mantissa without a negative exponent.  Rounding
drops bits of the mantissa only beyond the 53 that a double has, or below the
least exponent of a double, and neither reaches the first bit of an integer.  So
a sample rate that reads as a double can be divided by.
-/

namespace Flowgraph

namespace Number

open Float.Model (UnpackedFloat Format)
open Float.Model.UnpackedFloat

/-- Infinite, or finite in the range of the doubles and not zero. -/
def Sizable : UnpackedFloat → Prop
  | .infinity _ => True
  | .finite _ mantissa exponent _ => mantissa < 2 ^ 53 ∧ -1074 ≤ exponent
  | _ => False

/-! ## Rounding -/

theorem mantissa_shiftRight (m : ExtendedMantissa) (k : Nat) :
    (m >>> k).mantissa = m.mantissa / 2 ^ k := by
  show (k.repeat ExtendedMantissa.shiftRightOne m).mantissa = _
  induction k with
  | zero => simp [Nat.repeat]
  | succ k ih =>
      rw [Nat.repeat, ExtendedMantissa.shiftRightOne, ih, Nat.div_div_eq_div_mul, pow_succ]

theorem roundedMantissa_bounds (m : ExtendedMantissa) :
    m.mantissa ≤ m.roundedMantissa ∧ m.roundedMantissa ≤ m.mantissa + 1 := by
  unfold ExtendedMantissa.roundedMantissa Accuracy.roundToNearestEven
  split <;> omega

/-- A shift to the target leaves a mantissa of at most 53 bits, and not nothing. -/
theorem shift_spec {m : Nat} {e : Int} (some : m ≠ 0) (large : -1074 ≤ (m.log2 : Int) + e) :
    let shifted := shiftToTargetExponent .binary64 m e .exact
    0 < shifted.1.mantissa ∧ shifted.1.mantissa < 2 ^ 53 ∧ -1074 ≤ shifted.2 := by
  have target : Format.binary64.targetExponent (Float.Model.totalExponent m e) =
      max ((m.log2 : Int) + 1 + e - 53) (-1074) := rfl
  simp only [shiftToTargetExponent, shiftToExponent, target, mantissa_shiftRight]
  generalize count : (max ((m.log2 : Int) + 1 + e - 53) (-1074) - e).toNat = k
  have few : k ≤ m.log2 := by omega
  have many : m.log2 + 1 ≤ 53 + k := by omega
  have low : 2 ^ k ≤ m := (Nat.pow_le_pow_right (by decide) few).trans (Nat.log2_self_le some)
  have high : m < 2 ^ 53 * 2 ^ k := by
    rw [← pow_add]
    exact (Nat.lt_log2_self).trans_le (Nat.pow_le_pow_right (by decide) many)
  refine ⟨Nat.div_pos low (by positivity), (Nat.div_lt_iff_lt_mul (by positivity)).mpr high, ?_⟩
  omega

theorem sizable_roundWithAccuracy (s : Sign) {m : Nat} {e : Int} (some : m ≠ 0)
    (large : -1074 ≤ (m.log2 : Int) + e) :
    Sizable (roundWithAccuracy .binary64 s m e .exact) := by
  obtain ⟨positive, -, inRange⟩ := shift_spec some large
  obtain ⟨lower, -⟩ := roundedMantissa_bounds (shiftToTargetExponent .binary64 m e .exact).1
  -- A mantissa that was rounded up may have 54 bits, so there is a second shift.
  obtain ⟨positive', small', inRange'⟩ := shift_spec
    (m := (shiftToTargetExponent .binary64 m e .exact).1.roundedMantissa)
    (e := (shiftToTargetExponent .binary64 m e .exact).2) (by omega) (by omega)
  unfold roundWithAccuracy
  dsimp only
  rw [dif_neg (by omega)]
  exact ⟨small', inRange'⟩

/-! ## Packing -/

/-- Components that are neither of the exponent and the mantissa of zero, nor no number. -/
theorem sizable_unpack_packComponents (s : Sign) {exponent : BitVec 11} {mantissa : BitVec 52}
    (some : exponent ≠ 0#11 ∨ mantissa ≠ 0#52)
    (number : exponent = -1#11 → mantissa = 0#52) :
    Sizable (unpack .binary64 (packComponents .binary64 s exponent mantissa)) := by
  have bias : (Format.binary64.exponentBias : Int) = 1023 := rfl
  unfold unpack
  simp only [unpackMantissa_packComponents, unpackExponent_packComponents]
  by_cases full : exponent = -1#11
  · simp only [if_pos full, if_pos (number full), Sizable]
  rw [if_neg full]
  by_cases none : exponent = 0#11
  · have filled : mantissa ≠ 0#52 := some.resolve_left (not_not_intro none)
    have bound := mantissa.isLt
    rw [if_pos none, dif_neg filled]
    refine ⟨by omega, ?_⟩
    rw [bias]
    simp only [none]
    decide
  · have positive : 0 < exponent.toNat := by
      simpa [BitVec.toNat_pos, BitVec.pos_iff_ne_zero] using none
    have bound := (1#1 ++ mantissa).isLt
    rw [if_neg none]
    refine ⟨bound, ?_⟩
    rw [bias]
    show (-1074 : Int) ≤ (exponent.toNat : Int) - (1023 + 52)
    omega

theorem sizable_pack {u : UnpackedFloat} (h : Sizable u) :
    Sizable (Float.Model.pack u).unpack := by
  show Sizable (unpack .binary64 (pack .binary64 u))
  have infinite (s : Sign) : Sizable (unpack .binary64 (packedInfinity .binary64 s)) :=
    sizable_unpack_packComponents s (.inl (by decide)) fun _ => rfl
  cases u with
  | notANumber => cases h
  | zero s => cases h
  | infinity s => exact infinite s
  | finite s m e positive =>
      obtain ⟨small, inRange⟩ := h
      have bias : Format.binary64.exponentBias = 1023 := rfl
      have bits : Format.binary64.mantissaBits = 53 := rfl
      simp only [pack, bias, bits, Nat.cast_ofNat]
      split
      · exact infinite s
      · rename_i inside
        split
        · have value : (BitVec.ofNat 11 (e + 1023 + 52).toNat).toNat = (e + 1023 + 52).toNat := by
            rw [BitVec.toNat_ofNat, Nat.mod_eq_of_lt (by omega)]
          refine sizable_unpack_packComponents s (.inl fun none => ?_) fun full => ?_
          · have zero := congrArg BitVec.toNat none
            rw [value] at zero
            simp at zero
            omega
          · have ones := congrArg BitVec.toNat full
            rw [value] at ones
            simp at ones
            omega
        · rename_i short
          have bits : m.log2 < 53 := (Nat.log2_lt positive.ne').mpr small
          have fits : m < 2 ^ 52 := (Nat.log2_lt positive.ne').mp (by omega)
          have value : (BitVec.ofNat 52 m).toNat = m := by
            rw [BitVec.toNat_ofNat, Nat.mod_eq_of_lt fits]
          refine sizable_unpack_packComponents s (.inr fun none => ?_) fun full =>
            absurd full (by decide)
          have zero := congrArg BitVec.toNat none
          rw [value] at zero
          exact positive.ne' zero

/-! ## Integers -/

theorem le_log2_mul_two_pow {m : Nat} (some : m ≠ 0) (k : Nat) :
    m.log2 + k ≤ (m * 2 ^ k).log2 := by
  refine (Nat.le_log2 (by positivity)).mpr ?_
  rw [pow_add]
  exact Nat.mul_le_mul_right _ (Nat.log2_self_le some)

theorem sizable_mul_one {u : UnpackedFloat} (h : Sizable u) :
    Sizable (u.mul .binary64 (1 : Float).toModel.unpack) := by
  have one : (1 : Float).toModel.unpack = .finite .positive (2 ^ 52) (-52) (by decide) := rfl
  rw [one]
  cases u with
  | notANumber => cases h
  | zero s => cases h
  | infinity s => trivial
  | finite s m e positive =>
      obtain ⟨small, inRange⟩ := h
      refine sizable_roundWithAccuracy _ (by positivity) ?_
      have scaled := le_log2_mul_two_pow positive.ne' 52
      omega

theorem sizable_round {n : Nat} (some : n ≠ 0) :
    Sizable (UnpackedFloat.round .binary64 .positive n 0) := by
  simp only [UnpackedFloat.round, decreaseExponent, Nat.shiftLeft_eq]
  refine sizable_roundWithAccuracy _ (by positivity) ?_
  have scaled := le_log2_mul_two_pow some
    (0 - Format.binary64.targetExponent (Float.Model.totalExponent n 0)).toNat
  omega

theorem sizable_toFloat {n : UInt64} (some : n.toNat ≠ 0) :
    Sizable n.toFloat.toModel.unpack := by
  refine sizable_pack (u := UnpackedFloat.ofUInt64 .binary64 n) ?_
  have positive : compare (n.toNat : Int) 0 = .gt := by
    rw [compare_gt_iff_gt]
    omega
  simp only [UnpackedFloat.ofUInt64, UnpackedFloat.ofNat, UnpackedFloat.ofInt,
    UnpackedFloat.normalize, positive, Int.toNat_natCast]
  exact sizable_round some

theorem ofScientific_eq {n : Nat} (some : n ≠ 0) :
    UnpackedFloat.ofScientific .binary64 n 0 =
      roundWithAccuracy .binary64 .positive (n * 2 ^ 53) (-53) .exact := by
  have scaled : n <<< 53 * 10 ^ Int.toNat 0 = n * 2 ^ 53 := by simp [Nat.shiftLeft_eq]
  have bits : Format.binary64.mantissaBits = 53 := rfl
  have large : (2 : Int) ^ Format.binary64.exponentBits = 2048 := rfl
  unfold UnpackedFloat.ofScientific
  rw [dif_neg some, large, if_neg (by omega), if_neg (by omega), if_pos (le_refl 0), ← scaled]
  simp only [UnpackedFloat.mul, bits]
  rfl

theorem sizable_ofScientific {n : Nat} (some : n ≠ 0) :
    Sizable (UnpackedFloat.ofScientific .binary64 n 0) := by
  have scaled := le_log2_mul_two_pow some 53
  rw [ofScientific_eq some]
  exact sizable_roundWithAccuracy _ (by positivity) (by omega)

theorem sizable_ofNat {n : Nat} (some : n ≠ 0) : Sizable (Float.ofNat n).toModel.unpack := by
  show Sizable (Float.ofScientific n false 0).toModel.unpack
  unfold Float.ofScientific
  split
  · rename_i small
    have same : n.toUInt64.toNat = n := by
      simp [Nat.toUInt64]
      omega
    exact sizable_pack (sizable_mul_one (sizable_toFloat (by rwa [same])))
  · exact sizable_pack (sizable_ofScientific some)

/-- No positive integer is rounded to zero. -/
theorem floatOfInt_ne_zero {n : Int} {x : Float} (positive : 0 < n)
    (rounded : floatOfInt n = .ok x) : (x == 0) = false := by
  obtain ⟨k, rfl⟩ := Int.eq_ofNat_of_zero_le positive.le
  have same : x = Float.ofNat k := by
    unfold floatOfInt at rounded
    dsimp only at rounded
    split at rounded
    · cases rounded
    · cases rounded
      rfl
  have sizable : Sizable x.toModel.unpack := same ▸ sizable_ofNat (by omega)
  by_contra zero
  rcases eq_or_void_of_beq (Bool.eq_true_of_not_eq_false zero) with rfl | void
  · exact sizable
  · rcases void.spec with ⟨nan, -⟩ | ⟨s, t, none, -⟩
    · rw [nan] at sizable
      exact sizable
    · rw [none] at sizable
      exact sizable

end Number

end Flowgraph
