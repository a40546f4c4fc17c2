import Flowgraph.Number.Literal
import Flowgraph.Proofs.Number.Vanishing

/-!
# Numbers out of reach

Infinities have no integer part, and an integer far enough from zero has no
double.  These are the only numbers that a conversion fails on for their size.
-/

namespace Flowgraph

namespace Number

open Float.Model (UnpackedFloat)
open Float.Model.UnpackedFloat

variable {x : Float}

theorem toNat_unpackExponent (bits : BitVec 64) :
    (@unpackExponent .binary64 bits).toNat = bits.toNat / 2 ^ 52 % 2 ^ 11 := by
  unfold unpackExponent
  simp [BitVec.extractLsb, Nat.shiftRight_eq_div_pow]

/-- A double has no exact value exactly if all bits of its exponent are set. -/
theorem ofFloat?_eq_none_iff : Exact.ofFloat? x = none ↔ x.isInf = true ∨ x.isNaN = true := by
  have full : Exact.ofFloat? x = none ↔
      @unpackExponent .binary64 x.toBits.toBitVec = -1#11 := by
    rw [← BitVec.toNat_inj, toNat_unpackExponent]
    unfold Exact.ofFloat?
    dsimp only
    split
    · rename_i set
      exact iff_of_true rfl set
    · rename_i unset
      split <;> exact iff_of_false nofun unset
  rw [full]
  show _ ↔ (unpack .binary64 x.toBits.toBitVec).isInf = true ∨
    (unpack .binary64 x.toBits.toBitVec).isNaN = true
  unfold unpack
  dsimp only
  split
  · split <;> simp_all [UnpackedFloat.isInf, UnpackedFloat.isNaN]
  · split
    · split <;> simp_all [UnpackedFloat.isInf, UnpackedFloat.isNaN]
    · simp_all [UnpackedFloat.isInf, UnpackedFloat.isNaN]

theorem isNaN_of_isInf (infinite : x.isInf = true) : x.isNaN = false := by
  have unpacked : x.toModel.unpack.isInf = true := infinite
  show x.toModel.unpack.isNaN = false
  cases whole : x.toModel.unpack with
  | infinity s => rfl
  | _ =>
      rw [whole] at unpacked
      cases unpacked

theorem intOfFloat_of_isInf (infinite : x.isInf = true) :
    intOfFloat x = .error .infiniteInteger := by
  unfold intOfFloat
  rw [ofFloat?_eq_none_iff.mpr (.inl infinite)]
  simp only [isNaN_of_isInf infinite, Bool.false_eq_true, if_false]

/-- A double has no integer part if it is infinite, or no number at all. -/
theorem of_intOfFloat_eq_error {fault : Fault} (failed : intOfFloat x = .error fault) :
    (fault = .infiniteInteger ∧ x.isInf = true) ∨ fault = .undefinedInteger := by
  unfold intOfFloat at failed
  split at failed
  · cases failed
  · rename_i none
    split at failed
    · cases failed
      exact .inr rfl
    · rename_i number
      cases failed
      exact .inl ⟨rfl, (ofFloat?_eq_none_iff.mp none).resolve_right number⟩

theorem floatOfInt_eq_error_iff {n : Int} {fault : Fault} :
    floatOfInt n = .error fault ↔ (Float.ofInt n).isInf = true ∧ fault = .integerTooLarge := by
  unfold floatOfInt
  dsimp only
  split
  · rename_i infinite
    simp [infinite, eq_comm]
  · rename_i finite
    simp [finite]

/-- A numeral that is not read as an integer is malformed or too long. -/
theorem of_readInt_eq_error {s : String} {fault : Fault} (failed : readInt s = .error fault) :
    fault = .unreadableInteger s ∨ ∃ count, fault = .tooManyDigits count := by
  unfold readInt at failed
  dsimp only at failed
  split at failed
  · cases failed
    exact .inl rfl
  · split at failed
    · cases failed
      exact .inr ⟨_, rfl⟩
    · split at failed <;> cases failed
      exact .inl rfl

theorem of_readFloat_eq_error {s : String} {fault : Fault} (failed : readFloat s = .error fault) :
    fault = .unreadableReal s := by
  unfold readFloat at failed
  dsimp only at failed
  split at failed
  · cases failed
    rfl
  · split at failed <;> cases failed
    rfl

end Number

end Flowgraph
