import Flowgraph.Filter.Design
import Flowgraph.Proofs.Memory
import Flowgraph.Proofs.Number.Vanishing

/-!
# Designs of equal parameters

Filters are designed again when their parameters change, which is when they
compare as different.  Parameters that compare as equal give the same taps, also
where a cutoff of zero has changed its sign.  An order in the range of orders
leaves only the prototype to fail, which may have no gain to be scaled by.
-/

namespace Flowgraph

/-! ## Keys of a known kind -/

namespace Key

theorem text_beq (s t : String) : (text s == text t) = (s == t) := by
  show Key.same (text s) (text t) = _
  simp [Key.same, beq_eq_decide]

theorem int_beq (m n : Int) : (int m == int n) = (m == n) := by
  show Number.same (.int m) (.int n) = _
  rw [Bool.eq_iff_iff]
  simp [Number.same, Number.compare?]

theorem float_beq (x y : Float) : (float x == float y) = (x == y) := by
  show Number.same (.float x) (.float y) = _
  cases same : x == y with
  | true =>
      have below := Number.not_lt_of_beq same
      have above := Number.not_lt_of_beq (BEq.symm same)
      simp [Number.same, Number.compare?, below, above, same]
  | false =>
      simp only [Number.same, Number.compare?, same]
      split
      · rfl
      · split <;> rfl

end Key

namespace Filter

open Elementary Number

variable {x y f g rateHz : Float}

/-! ## Taps for a cutoff of zero -/

theorem sinc_of_void (h : Void x y) : sinc x = sinc y := by
  rcases h.spec with ⟨rfl, rfl⟩ | ⟨s, t, zero, zero'⟩
  · rfl
  · simp only [sinc, beq_of_zero zero, beq_of_zero zero', if_true]

theorem normalized_of_void (h : Void x y) (rate : Float) :
    Void (normalized x rate) (normalized y rate) := by
  have low {z z' : Float} (h : Void z z') : ¬ 0.5 < z ∧ ¬ 0.5 < z' := by
    rcases h.spec with ⟨rfl, rfl⟩ | ⟨s, t, zero, zero'⟩
    · exact ⟨not_half_lt_nan, not_half_lt_nan⟩
    · exact ⟨not_half_lt_of_zero zero, not_half_lt_of_zero zero'⟩
  have ratio : Void (x / rate) (y / rate) := h.div_right rate
  simpa only [normalized, if_neg (low ratio).1, if_neg (low ratio).2] using ratio

theorem forall₂_zipWith_mul {as bs : List Float} (h : List.Forall₂ Void as bs)
    (weights : List Float) :
    List.Forall₂ Void (as.zipWith (· * ·) weights) (bs.zipWith (· * ·) weights) := by
  induction h generalizing weights with
  | nil => simp
  | cons same _ ih =>
      cases weights with
      | nil => simp
      | cons w rest => exact .cons (same.mul_right w) (ih rest)

theorem prototype_of_void (h : Void f g) (n : Nat) :
    List.Forall₂ Void (prototype n f) (prototype n g) := by
  have ideal (x : Float) : Void (2 * f * sinc (2 * f * x)) (2 * g * sinc (2 * g * x)) := by
    have argument : Void (2 * f * x) (2 * g * x) := (h.mul_left 2).mul_right x
    rw [sinc_of_void argument]
    exact (h.mul_left 2).mul_right _
  refine forall₂_zipWith_mul ?_ _
  rw [List.forall₂_map_left_iff, List.forall₂_map_right_iff]
  exact List.forall₂_same.mpr fun x _ => ideal x

theorem void_foldl_add {as bs : List Float} (h : List.Forall₂ Void as bs) {s t : Float}
    (start : Void s t) : Void (as.foldl (· + ·) s) (bs.foldl (· + ·) t) := by
  induction h generalizing s t with
  | nil => exact start
  | cons same _ ih => exact ih (start.add same)

theorem unitGain?_of_void {as bs : List Float} (h : List.Forall₂ Void as bs) :
    unitGain? as = unitGain? bs := by
  have zero : Void 0 0 := .zeros .positive .positive
  have total := void_foldl_add h zero
  unfold unitGain?
  rcases total.spec with ⟨nan, nan'⟩ | ⟨s, t, none, none'⟩
  · simp only [nan, nan', if_neg not_le_nan, div_nan, List.map_const', h.length_eq]
  · simp only [if_pos (le_of_zero none), if_pos (le_of_zero none')]

/-- The sign of a cutoff of zero does not show in the taps. -/
theorem taps?_of_void (h : Void x y) (response : Response) (n : Nat) (rate : Float) :
    taps? response n x rate = taps? response n y rate := by
  have lowpass := unitGain?_of_void (prototype_of_void (normalized_of_void h rate) n)
  simp only [taps?, lowpass]

/-! ## When a design succeeds -/

theorem int_le_zero_iff {n : Int} : (Number.int n).le (.int 0) = true ↔ n ≤ 0 := by
  simp [Number.le, Number.compare?, compare_lt_iff_lt, le_iff_lt_or_eq]

/-- A design of plain numbers: two checks, and then steps that may each fail. -/
theorem design_eq (memory : Memory) (n : Int) (x : Float) (rate : Int) (kind : String) :
    design memory (.int n) (.float x) (.int rate) (.text kind) =
      if n < 1 then .error (Value.named .filterOrder (.int n))
      else if rate ≤ 0 then .error .filterRate
      else
        match Response.ofName? kind with
        | none => .error (.filterKind kind)
        | some response =>
          match floatOfInt rate, memory.rangeLength n with
          | .error fault, _ => .error fault
          | .ok _, .error fault => .error fault
          | .ok rateHz, .ok count =>
            match taps? response count x rateHz with
            | none => .error (Value.named .degenerateFilter (.float x))
            | some taps => .ok taps := by
  by_cases few : n < 1
  · rw [if_pos few, design]
    simp only [Value.toInt, Value.number?, Number.toInt, bind, Except.bind, if_pos few]
    rfl
  by_cases slow : rate ≤ 0
  · rw [if_neg few, if_pos slow, design]
    simp only [Value.toInt, Value.number?, Number.toInt, Value.numberFor, bind, Except.bind,
      if_neg few, int_le_zero_iff, if_pos slow]
    rfl
  rw [if_neg few, if_neg slow, design]
  simp only [Value.toInt, Value.number?, Number.toInt, Value.numberFor, Value.toFloat,
    Number.toFloat, bind, Except.bind, if_neg few, int_le_zero_iff, if_neg slow]
  cases Response.ofName? kind with
  | none => rfl
  | some response =>
      cases floatOfInt rate with
      | error fault => rfl
      | ok rateHz =>
          cases memory.rangeLength n with
          | error fault => rfl
          | ok count =>
              simp only [pure, Except.pure]
              cases taps? response count x rateHz <;> rfl

theorem design_eq_ok_iff {memory : Memory} {n rate : Int} {kind : String} {taps : List Float} :
    design memory (.int n) (.float x) (.int rate) (.text kind) = .ok taps ↔
      ∃ response rateHz count, 1 ≤ n ∧ 0 < rate ∧ Response.ofName? kind = some response ∧
        floatOfInt rate = .ok rateHz ∧ memory.rangeLength n = .ok count ∧
        taps? response count x rateHz = some taps := by
  rw [design_eq]
  constructor
  · intro made
    by_cases few : n < 1
    · rw [if_pos few] at made
      cases made
    by_cases slow : rate ≤ 0
    · rw [if_neg few, if_pos slow] at made
      cases made
    rw [if_neg few, if_neg slow] at made
    split at made
    · cases made
    · split at made
      · cases made
      · cases made
      · split at made
        · cases made
        · cases made
          exact ⟨_, _, _, by omega, by omega, ‹_›, ‹_›, ‹_›, ‹_›⟩
  · rintro ⟨response, rateHz, count, some, positive, known, rounded, ranged, made⟩
    rw [if_neg (by omega), if_neg (by omega)]
    simp only [known, rounded, ranged, made]

theorem design_of_beq {memory : Memory} {n rate : Int} {kind : String} {taps : List Float}
    (same : (x == y) = true)
    (designed : design memory (.int n) (.float x) (.int rate) (.text kind) = .ok taps) :
    design memory (.int n) (.float y) (.int rate) (.text kind) = .ok taps := by
  rcases eq_or_void_of_beq same with rfl | void
  · exact designed
  · obtain ⟨response, rateHz, count, some, positive, known, rounded, ranged, made⟩ :=
      design_eq_ok_iff.mp designed
    rw [taps?_of_void void] at made
    exact design_eq_ok_iff.mpr
      ⟨response, rateHz, count, some, positive, known, rounded, ranged, made⟩

/-! ## Orders in range -/

/-- The lowpass prototype for a cutoff has a sum that its taps can be divided by. -/
def Scalable (n : Nat) (cutoff rate : Float) : Prop :=
  ¬ (prototype n (normalized cutoff rate)).foldl (· + ·) 0 ≤ 0

theorem exists_taps?_iff (response : Response) (n : Nat) :
    (∃ taps, taps? response n x rateHz = some taps) ↔ Scalable n x rateHz := by
  unfold taps? unitGain? Scalable
  by_cases low : (prototype n (normalized x rateHz)).foldl (· + ·) 0 ≤ 0
  · cases response <;> simp [low]
  · cases response <;> simp [low]

theorem exists_design_iff {memory : Memory} {n rate : Int} {kind : String} {response : Response}
    (least : 1 ≤ n) (most : n ≤ 1024) (positive : 0 < rate)
    (known : Response.ofName? kind = some response) :
    (∃ taps, design memory (.int n) (.float x) (.int rate) (.text kind) = .ok taps) ↔
      ∃ rateHz, floatOfInt rate = .ok rateHz ∧ Scalable n.toNat x rateHz := by
  have ranged := memory.rangeLength_of_le most
  constructor
  · rintro ⟨taps, made⟩
    obtain ⟨response, rateHz, count, -, -, -, read, counted, made⟩ := design_eq_ok_iff.mp made
    cases ranged.symm.trans counted
    exact ⟨rateHz, read, (exists_taps?_iff response n.toNat).mp ⟨taps, made⟩⟩
  · rintro ⟨rateHz, read, scalable⟩
    obtain ⟨taps, made⟩ := (exists_taps?_iff response n.toNat).mpr scalable
    exact ⟨taps, design_eq_ok_iff.mpr
      ⟨response, rateHz, n.toNat, least, positive, known, read, ranged, made⟩⟩

theorem designQuadrature_eq_ok_iff {memory : Memory} {order : Value} {taps : List Float} :
    designQuadrature memory order = .ok taps ↔
      ∃ n : Nat, order.toInt = .ok n ∧ 1 ≤ n ∧ Memory.cellBytes * n < memory.available ∧
        taps = quadrature n := by
  unfold designQuadrature
  constructor
  · intro made
    obtain ⟨n, ordered, made⟩ := of_bind_eq_ok made
    by_cases few : n < 1
    · rw [if_pos few] at made
      cases made
    rw [if_neg few] at made
    obtain ⟨count, ranged, made⟩ := of_bind_eq_ok made
    cases made
    obtain ⟨reserved, rfl⟩ := memory.rangeLength_eq_ok_iff.mp ranged
    have fits := (memory.reserve_line_iff (by omega)).mp reserved
    exact ⟨n.toNat, by rw [ordered, Int.toNat_of_nonneg (by omega)], by omega, fits, rfl⟩
  · rintro ⟨n, ordered, least, fits, rfl⟩
    have few : ¬ (n : Int) < 1 := by omega
    simp only [ordered, bind, Except.bind, if_neg few, memory.rangeLength_line fits]
    rfl

theorem exists_designQuadrature {memory : Memory} {n : Int} (least : 1 ≤ n) (most : n ≤ 1024) :
    ∃ taps, designQuadrature memory (.int n) = .ok taps := by
  have order : (Value.int n).toInt = .ok (n.toNat : Int) := by
    rw [Int.toNat_of_nonneg (by omega)]
    rfl
  have few : n.toNat < Nat.pow 2 17 := by
    have : 1024 < Nat.pow 2 17 := by decide
    omega
  exact ⟨quadrature n.toNat, designQuadrature_eq_ok_iff.mpr
    ⟨n.toNat, order, by omega, memory.fits_of_lt few, rfl⟩⟩

end Filter

end Flowgraph
