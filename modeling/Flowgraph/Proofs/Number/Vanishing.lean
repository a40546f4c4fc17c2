import Flowgraph.Number.Basic
import Mathlib

/-!
# Doubles without magnitude

Doubles that are equal are the same double, except for the two zeros.  Which of
the two it is does not matter much: in products and sums of zeros it only shows
in the sign of zeros, and nothing is left of it after a division by the sum.
-/

namespace Flowgraph

namespace Number

open Float.Model (UnpackedFloat Format)

inductive SameVoid : UnpackedFloat → UnpackedFloat → Prop where
  | zeros (s t : UnpackedFloat.Sign) : SameVoid (.zero s) (.zero t)
  | nans : SameVoid .notANumber .notANumber

namespace SameVoid

variable {u v u' v' : UnpackedFloat}

theorem mul_right (h : SameVoid u v) (w : UnpackedFloat) :
    SameVoid (u.mul .binary64 w) (v.mul .binary64 w) := by
  cases h <;> cases w <;> constructor

theorem mul_left (h : SameVoid u v) (w : UnpackedFloat) :
    SameVoid (w.mul .binary64 u) (w.mul .binary64 v) := by
  cases h <;> cases w <;> constructor

theorem div_right (h : SameVoid u v) (w : UnpackedFloat) :
    SameVoid (u.div .binary64 w) (v.div .binary64 w) := by
  cases h <;> cases w <;> constructor

theorem add (h : SameVoid u v) (h' : SameVoid u' v') :
    SameVoid (u.add .binary64 u') (v.add .binary64 v') := by
  cases h with
  | nans => constructor
  | zeros s t =>
      cases h' with
      | nans => constructor
      | zeros s' t' => cases s <;> cases s' <;> cases t <;> cases t' <;> constructor

end SameVoid

def Void (x y : Float) : Prop :=
  SameVoid x.toModel.unpack y.toModel.unpack

variable {x y x' y' : Float}

/-- A zero is packed as a zero, and what is no number as such. -/
theorem SameVoid.pack {u v : UnpackedFloat} (h : SameVoid u v) :
    Void ⟨Float.Model.pack u⟩ ⟨Float.Model.pack v⟩ := by
  have zero (s : UnpackedFloat.Sign) : (Float.Model.pack (.zero s)).unpack = .zero s := by
    cases s <;> rfl
  cases h with
  | zeros s t =>
      rw [Void, zero, zero]
      exact .zeros s t
  | nans => exact .nans

namespace Void

theorem mul_right (h : Void x y) (z : Float) : Void (x * z) (y * z) :=
  (SameVoid.mul_right h z.toModel.unpack).pack

theorem mul_left (h : Void x y) (z : Float) : Void (z * x) (z * y) :=
  (SameVoid.mul_left h z.toModel.unpack).pack

theorem div_right (h : Void x y) (z : Float) : Void (x / z) (y / z) :=
  (SameVoid.div_right h z.toModel.unpack).pack

theorem add (h : Void x y) (h' : Void x' y') : Void (x + x') (y + y') :=
  (SameVoid.add h h').pack

end Void

theorem beq_self (number : x.isNaN = false) : (x == x) = true := by
  have other : x ≠ Float.nan := by simpa using number
  exact Float.beq_iff_ne_nan_and_eq.mpr ⟨other, other, .inl rfl⟩

/-- Doubles that are equal are one double or two zeros. -/
theorem eq_or_void_of_beq (h : (x == y) = true) : x = y ∨ Void x y := by
  obtain ⟨-, -, rfl | ⟨rfl, rfl⟩ | ⟨rfl, rfl⟩⟩ := Float.beq_iff_ne_nan_and_eq.mp h
  · exact .inl rfl
  · exact .inr (.zeros .positive .negative)
  · exact .inr (.zeros .negative .positive)

theorem not_lt_of_beq (h : (x == y) = true) : ¬ x < y := by
  intro below
  have equal : (x.toModel.unpack.compare y.toModel.unpack == some .eq) = true := h
  have less : decide ((x.toModel.unpack.compare y.toModel.unpack == some .lt) = true) = true :=
    below
  rw [beq_iff_eq] at equal
  rw [decide_eq_true_eq, beq_iff_eq, equal] at less
  cases less

/-- Neither is a number, or both are zero. -/
theorem Void.spec (h : Void x y) :
    (x = Float.nan ∧ y = Float.nan) ∨
      ∃ s t, x.toModel.unpack = .zero s ∧ y.toModel.unpack = .zero t := by
  have nan {z : Float} (none : z.toModel.unpack = .notANumber) : z = Float.nan := by
    have noNumber : z.isNaN = true := by
      show z.toModel.unpack.isNaN = true
      rw [none]
      rfl
    simpa using noNumber
  unfold Void at h
  generalize left : x.toModel.unpack = u at h
  generalize right : y.toModel.unpack = v at h
  cases h with
  | zeros s t => exact .inr ⟨s, t, rfl, rfl⟩
  | nans => exact .inl ⟨nan left, nan right⟩

/-- A zero of either sign is the integer zero. -/
theorem intOfFloat_of_beq_zero (zero : (x == 0) = true) : intOfFloat x = .ok 0 := by
  have cut {e : Exact} (exact : Exact.ofFloat? x = some e) (none : e.mantissa = 0) :
      intOfFloat x = .ok 0 := by
    simp [intOfFloat, exact, Exact.truncate, Exact.num, none]
  obtain ⟨-, -, rfl | ⟨rfl, -⟩ | ⟨rfl, -⟩⟩ := Float.beq_iff_ne_nan_and_eq.mp zero
  · exact cut (e := ⟨false, 0, -1074⟩) (by decide +kernel) rfl
  · exact cut (e := ⟨false, 0, -1074⟩) (by decide +kernel) rfl
  · exact cut (e := ⟨true, 0, -1074⟩) (by decide +kernel) rfl

theorem beq_of_zero {s : UnpackedFloat.Sign} (zero : x.toModel.unpack = .zero s) :
    (x == 0) = true := by
  show (x.toModel.unpack.compare (0 : Float).toModel.unpack == some .eq) = true
  rw [zero]
  rfl

theorem le_of_zero {s : UnpackedFloat.Sign} (zero : x.toModel.unpack = .zero s) : x ≤ 0 := by
  show decide ((x.toModel.unpack.compare (0 : Float).toModel.unpack).any (·.isLE) = true) = true
  rw [zero]
  rfl

theorem not_half_lt_of_zero {s : UnpackedFloat.Sign} (zero : x.toModel.unpack = .zero s) :
    ¬ 0.5 < x := by
  show ¬ decide (((0.5 : Float).toModel.unpack.compare x.toModel.unpack == some .lt) = true) = true
  rw [zero]
  cases s <;> decide +kernel

theorem not_le_nan : ¬ Float.nan ≤ 0 := by
  decide +kernel

theorem not_half_lt_nan : ¬ 0.5 < Float.nan := by
  decide +kernel

theorem div_nan (x : Float) : x / Float.nan = Float.nan := by
  have quotient : x.toModel.unpack.div .binary64 .notANumber = .notANumber := by
    cases x.toModel.unpack <;> rfl
  have nan : Float.nan.toModel.unpack = .notANumber := by rfl
  show Float.ofModel (Float.Model.pack
    (x.toModel.unpack.div .binary64 Float.nan.toModel.unpack)) = Float.nan
  rw [nan, quotient]
  rfl

end Number

end Flowgraph
