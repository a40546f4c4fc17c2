import Flowgraph.Proofs.Filter.Gain
import Mathlib.Algebra.Ring.CharZero
import Mathlib.Tactic.FieldSimp
import Mathlib.Tactic.Ring

/-!
# Symmetry of taps

Offsets from the centre change their sign when they are read from the other end,
whether the centre is a tap or lies between two.  So an even curve under the
window gives taps that read the same from either end, and an odd curve gives taps
that read as their negatives.
-/

namespace Flowgraph

/-! ## Lists read from the other end -/

theorem reverse_map_range {β : Type} (f : Nat → β) (n : Nat) :
    ((List.range n).map f).reverse = (List.range n).map fun i => f (n - 1 - i) := by
  rw [← List.map_reverse, List.range_eq_range', List.reverse_range', List.map_map,
    ← List.range_eq_range']
  exact List.map_congr_left fun i _ => by rw [Function.comp_apply, Nat.zero_add]

section

variable {K : Type} [Field K] {sign : K} {xs : List K}

/-- What is as far from the one end as from the other differs by a sign. -/
def Mirrored (sign : K) (xs : List K) : Prop :=
  xs.reverse = xs.map (sign * ·)

theorem Mirrored.getElem? (h : Mirrored sign xs) {i : Nat} (inside : i < xs.length) :
    xs[xs.length - 1 - i]? = xs[i]?.map (sign * ·) := by
  rw [← List.getElem?_reverse inside, h, List.getElem?_map]

theorem Mirrored.getD_eq (h : Mirrored sign xs) {i : Nat} (inside : i < xs.length) :
    xs.getD i 0 = sign * xs.getD (xs.length - 1 - i) 0 := by
  have mirrored := h.getElem? (i := xs.length - 1 - i) (by omega)
  rw [show xs.length - 1 - (xs.length - 1 - i) = i by omega] at mirrored
  rw [List.getD_eq_getElem?_getD, List.getD_eq_getElem?_getD, mirrored]
  cases xs[xs.length - 1 - i]? with
  | none => exact (mul_zero sign).symm
  | some x => rfl

theorem mirrored_of_getElem? (h : ∀ i < xs.length,
    xs[xs.length - 1 - i]? = xs[i]?.map (sign * ·)) : Mirrored sign xs := by
  refine List.ext_getElem? fun i => ?_
  rcases Nat.lt_or_ge i xs.length with inside | beyond
  · rw [List.getElem?_reverse inside, h i inside, List.getElem?_map]
  · rw [List.getElem?_eq_none (by rwa [List.length_reverse]),
      List.getElem?_eq_none (by rwa [List.length_map])]

theorem Mirrored.map {f : K → K} (h : Mirrored sign xs)
    (passes : ∀ x, f (sign * x) = sign * f x) : Mirrored sign (xs.map f) := by
  rw [Mirrored, ← List.map_reverse, h, List.map_map, List.map_map]
  exact List.map_congr_left fun x _ => passes x

theorem Mirrored.sum_eq_zero [CharZero K] (h : Mirrored (-1) xs) : xs.sum = 0 := by
  have negated : xs.sum = -xs.sum := by
    calc xs.sum = xs.reverse.sum := (List.sum_reverse xs).symm
      _ = (-1) * (xs.map id).sum := by rw [h, ← List.sum_map_mul_left]; rfl
      _ = -xs.sum := by rw [List.map_id, neg_one_mul]
  exact self_eq_neg.mp negated

theorem Mirrored.centre_eq_zero [CharZero K] (h : Mirrored (-1) xs) (odd : xs.length % 2 = 1) :
    xs.getD (xs.length / 2) 0 = 0 := by
  have mirrored := h.getD_eq (i := xs.length / 2) (by omega)
  rw [show xs.length - 1 - xs.length / 2 = xs.length / 2 by omega, neg_one_mul] at mirrored
  exact self_eq_neg.mp mirrored

end

/-! ## Curves under a window -/

open Elementary

variable {K : Type} [Field K] [Elementary K]

theorem Window.reverse_hamming (even : ∀ x : K, cos (-x) = cos x) (n : Nat) :
    (hamming n : List K).reverse = hamming n := by
  unfold hamming
  split
  · rfl
  · rw [reverse_map_range]
    refine List.map_congr_left fun i mem => ?_
    have inside := List.mem_range.mp mem
    have across : 2 * ((n - 1 - i : Nat) : Int) + 1 - n = -(2 * (i : Int) + 1 - n) := by omega
    simp only [across, Int.cast_neg, mul_neg, neg_div, even]

namespace Filter

omit [Elementary K] in
/-- A place and the one as far from the other end are on either side of the centre. -/
theorem reverse_offsets [CharZero K] (n : Nat) :
    (offsets n : List K).reverse = (offsets n).map (- ·) := by
  unfold offsets
  rw [reverse_map_range, List.map_map]
  refine List.map_congr_left fun i mem => ?_
  have inside := List.mem_range.mp mem
  have across : ((n - 1 - i : Nat) : K) = n - 1 - i := by
    rw [Nat.cast_sub (by omega), Nat.cast_sub (by omega), Nat.cast_one]
  rw [Function.comp_apply, across]
  field_simp
  ring

/-- The parity of a curve is that of its values at the offsets, under the window. -/
theorem mirrored_windowed [CharZero K] (even : ∀ x : K, cos (-x) = cos x) {sign : K}
    {curve : K → K} (parity : ∀ x, curve (-x) = sign * curve x) (n : Nat) :
    Mirrored sign (((offsets n).map curve).zipWith (· * ·) (Window.hamming n)) := by
  have lengths : ((offsets n).map curve).length = (Window.hamming n : List K).length := by
    simp [offsets]
  have curves : ((offsets n).map curve).reverse = ((offsets n).map curve).map (sign * ·) := by
    rw [← List.map_reverse, reverse_offsets, List.map_map, List.map_map]
    exact List.map_congr_left fun x _ => parity x
  rw [Mirrored, List.reverse_zipWith lengths, Window.reverse_hamming even, curves,
    List.zipWith_map_left, List.map_zipWith]
  simp only [mul_assoc]

/-! ## Designed taps -/

section

variable [BEq K]

omit [Elementary K] in
theorem neg_beq_zero [LawfulBEq K] (x : K) : (-x == 0) = (x == 0) := by
  rw [Bool.eq_iff_iff, beq_iff_eq, beq_iff_eq, neg_eq_zero]

theorem sinc_neg [LawfulBEq K] (odd : ∀ x : K, sin (-x) = -sin x) (x : K) :
    sinc (-x) = sinc x := by
  unfold sinc
  rw [neg_beq_zero]
  split
  · rfl
  · simp only [mul_neg, odd, neg_div_neg_eq]

theorem mirrored_prototype [CharZero K] (even : ∀ x : K, cos (-x) = cos x)
    (sinc_even : ∀ x : K, sinc (-x) = sinc x) (n : Nat) (f : K) :
    Mirrored 1 (prototype n f) :=
  mirrored_windowed even (fun x => by rw [mul_neg, sinc_even, one_mul]) n

/-- The quadrature curve changes its sign with its offset; its centre is masked. -/
theorem mirrored_quadrature [CharZero K] [LawfulBEq K] (even : ∀ x : K, cos (-x) = cos x)
    (n : Nat) : Mirrored (-1) (quadrature n : List K) := by
  refine mirrored_windowed even (fun x => ?_) n
  rw [neg_beq_zero]
  split
  · rw [mul_zero]
  · rw [mul_neg, even, div_neg, neg_one_mul]

@[simp]
theorem length_quadrature (n : Nat) : (quadrature n : List K).length = n := by
  simp [quadrature, offsets]

end

section

omit [Elementary K]

variable [LinearOrder K] {values taps : List K}

theorem mirrored_unitGain? {sign : K} (h : Mirrored sign values)
    (scaled : unitGain? values = some taps) : Mirrored sign taps := by
  obtain ⟨-, rfl⟩ := unitGain?_eq_some scaled
  exact h.map fun x => mul_div_assoc sign x _

omit [LinearOrder K] in
/-- The one tap that an inversion adds to is the centre, if the centre is a tap. -/
theorem mirrored_invert (h : Mirrored 1 taps) (odd : taps.length % 2 = 1) :
    Mirrored 1 (invert taps) := by
  refine mirrored_of_getElem? fun i inside => ?_
  rw [length_invert] at inside ⊢
  have negated (j : Nat) : (invert taps)[j]? =
      taps[j]?.map fun x => if taps.length / 2 = j then -x + 1 else -x := by
    rw [invert, List.getElem?_modify, List.getElem?_map]
    cases taps[j]? <;> rfl
  have centre : taps.length / 2 = taps.length - 1 - i ↔ taps.length / 2 = i := by omega
  rw [negated, negated, h.getElem? inside, Option.map_map, Option.map_map]
  congr 1
  funext x
  simp only [Function.comp_apply, one_mul, centre]

/-- A lowpass is symmetric; its inversion is for an odd number of taps. -/
theorem mirrored_scaled? {response : Response} (h : Mirrored 1 values)
    (made : response.scaled? values = some taps)
    (centred : response = .highpass → values.length % 2 = 1) : Mirrored 1 taps := by
  cases response with
  | lowpass => exact mirrored_unitGain? h made
  | highpass =>
      obtain ⟨lowpass, scaled, rfl⟩ := Option.map_eq_some_iff.mp made
      refine mirrored_invert (mirrored_unitGain? h scaled) ?_
      rw [(unitGain?_eq_some scaled).2, List.length_map]
      exact centred rfl

end

end Filter

end Flowgraph
