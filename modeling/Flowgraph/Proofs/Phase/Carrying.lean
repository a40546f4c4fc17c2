import Flowgraph.Detector
import Flowgraph.Oscillator
import Flowgraph.Proofs.Phase.Wrapping

/-!
# Carrying a phase

Oscillators and phase detectors make a buffer of the phase that they carry and
then advance it over the buffer.  On the real numbers the carried phase differs
by whole turns from one that is never wrapped, and whole turns do not show in
what is made of a phase, so the buffers join.
-/

namespace Flowgraph

namespace Phase

open Elementary

/-- One buffer that is made of a carried phase, and how far the phase turns with each sample. -/
structure Leg (α : Type) where
  step : α
  size : Nat
  made : α → List α

namespace Leg

section

variable {α : Type} [Add α] [Mul α] [NatCast α]

/-- What is made of a phase that is advanced over each buffer and never wrapped. -/
def unbroken : α → List (Leg α) → List (List α)
  | _, [] => []
  | phase, leg :: rest => leg.made phase :: unbroken (phase + leg.step * (leg.size : α)) rest

variable [Elementary α] [LT α] [DecidableLT α] [LE α] [DecidableLE α] [OfNat α 0] [OfNat α 2]

/-- Make a buffer and advance the phase; a phase that cannot be advanced stays. -/
def run (leg : Leg α) (phase : α) : α × Except Fault (List α) :=
  match wrap (phase + leg.step * (leg.size : α)) with
  | .error fault => (phase, .error fault)
  | .ok after => (after, .ok (leg.made phase))

def answers : α → List (Leg α) → List (Except Fault (List α))
  | _, [] => []
  | phase, leg :: rest => (leg.run phase).2 :: answers (leg.run phase).1 rest

def phaseAfter : α → List (Leg α) → α
  | phase, [] => phase
  | phase, leg :: rest => phaseAfter (leg.run phase).1 rest

end

/-! ## On the real numbers -/

/-- Whole turns do not show in a buffer. -/
def Periodic (leg : Leg ℝ) : Prop :=
  ∀ ⦃a b : ℝ⦄, a ≡ b [PMOD 2 * Real.pi] → leg.made a = leg.made b

theorem run_real (leg : Leg ℝ) (phase : ℝ) :
    leg.run phase =
      (toIcoMod Real.two_pi_pos 0 (phase + leg.step * leg.size), .ok (leg.made phase)) := by
  rw [run, wrap_real]

/-- Wrapping takes whole turns away. -/
theorem wrapped_modEq (x : ℝ) : toIcoMod Real.two_pi_pos 0 x ≡ x [PMOD 2 * Real.pi] :=
  AddCommGroup.modEq_iff_eq_add_zsmul.mpr
    ⟨toIcoDiv Real.two_pi_pos 0 x, (toIcoMod_add_toIcoDiv_zsmul Real.two_pi_pos 0 x).symm⟩

theorem answers_real {legs : List (Leg ℝ)} (periodic : ∀ leg ∈ legs, leg.Periodic)
    {carried phase : ℝ} (same : carried ≡ phase [PMOD 2 * Real.pi]) :
    answers carried legs = (unbroken phase legs).map .ok := by
  induction legs generalizing carried phase with
  | nil => rfl
  | cons leg rest ih =>
      obtain ⟨first, others⟩ := List.forall_mem_cons.mp periodic
      have advanced : (leg.run carried).1 ≡ phase + leg.step * leg.size [PMOD 2 * Real.pi] := by
        rw [run_real]
        exact (wrapped_modEq _).trans (same.add_right _)
      rw [answers, unbroken, List.map_cons, ih others advanced, run_real, first same]

theorem phaseAfter_modEq (phase : ℝ) (legs : List (Leg ℝ)) :
    phaseAfter phase legs ≡
      phase + (legs.map fun leg => leg.step * (leg.size : ℝ)).sum [PMOD 2 * Real.pi] := by
  induction legs generalizing phase with
  | nil => simp [phaseAfter]
  | cons leg rest ih =>
      rw [phaseAfter, run_real, List.map_cons, List.sum_cons, ← add_assoc]
      exact (ih _).trans ((wrapped_modEq _).add_right _)

theorem phaseAfter_mem (phase : ℝ) {legs : List (Leg ℝ)} (some : legs ≠ []) :
    phaseAfter phase legs ∈ Set.Ico 0 (2 * Real.pi) := by
  induction legs generalizing phase with
  | nil => exact absurd rfl some
  | cons leg rest ih =>
      cases rest with
      | nil =>
          rw [phaseAfter, run_real]
          exact toIcoMod_mem_Ico' Real.two_pi_pos _
      | cons => exact ih _ (List.cons_ne_nil _ _)

end Leg

end Phase

open Phase

/-! ## Oscillations -/

theorem Waveform.function_modEq (wave : Waveform) {a b : ℝ} (same : a ≡ b [PMOD 2 * Real.pi]) :
    wave.function a = wave.function b := by
  obtain ⟨turns, rfl⟩ := AddCommGroup.modEq_iff_eq_add_zsmul.mp same
  rw [zsmul_eq_mul]
  cases wave with
  | sine => exact (Real.sin_add_int_mul_two_pi a turns).symm
  | cosine => exact (Real.cos_add_int_mul_two_pi a turns).symm

structure Voice (α : Type) where
  wave : Waveform
  tone : Tone α
  size : Nat

def Voice.leg {α : Type} [Elementary α] [Add α] [Mul α] [Div α] [OfNat α 2] [NatCast α]
    (v : Voice α) : Leg α where
  step := v.tone.step
  size := v.size
  made phase := v.tone.samples v.wave phase v.size

theorem Voice.leg_periodic (v : Voice ℝ) : v.leg.Periodic := by
  intro a b same
  refine List.map_congr_left fun n _ => ?_
  rw [v.wave.function_modEq (same.add_left _)]

theorem Tone.samples_append (t : Tone ℝ) (wave : Waveform) (phase : ℝ) (count more : Nat) :
    t.samples wave phase count ++ t.samples wave (phase + t.step * count) more =
      t.samples wave phase (count + more) := by
  simp only [Tone.samples, List.range_add, List.map_append, List.map_map]
  congr 1
  refine List.map_congr_left fun n _ => ?_
  simp only [Function.comp_apply, Nat.cast_add, mul_add, add_left_comm, add_assoc, add_comm phase]

theorem Voice.flatten_unbroken (wave : Waveform) (t : Tone ℝ) (phase : ℝ) (sizes : List Nat) :
    (Leg.unbroken phase (sizes.map fun n => (Voice.mk wave t n).leg)).flatten =
      t.samples wave phase sizes.sum := by
  induction sizes generalizing phase with
  | nil => rfl
  | cons n rest ih =>
      rw [List.map_cons, Leg.unbroken, List.flatten_cons, ih, List.sum_cons]
      exact t.samples_append wave phase n rest.sum

/-! ## Deviations from a reference -/

section

variable {α : Type} [Elementary α] [Add α] [Sub α] [Mul α] [Div α] [LT α] [DecidableLT α]
  [OfNat α 0] [OfNat α 2] [OfNat α 180] [NatCast α]

def Detector.errors (start step : α) (points : List (Point α)) : List α :=
  (points.map phase).zipWith deviation (reference start step points.length)

structure Comparison (α : Type) where
  frequency : α
  rate : α
  points : List (Point α)

def Comparison.leg (c : Comparison α) : Leg α where
  step := Elementary.turn * c.frequency / c.rate
  size := c.points.length
  made start := Detector.errors start (Elementary.turn * c.frequency / c.rate) c.points

end

theorem Detector.deviation_modEq (angle : ℝ) {a b : ℝ} (same : a ≡ b [PMOD 2 * Real.pi]) :
    Detector.deviation angle a = Detector.deviation angle b := by
  rw [deviation, deviation, centred_real, centred_real,
    (same.sub_left angle).toIcoMod_eq_toIcoMod]

theorem Detector.reference_succ (start step : ℝ) (count : Nat) :
    reference start step (count + 1) = start :: reference (start + step) step count := by
  simp only [reference, List.range_succ_eq_map, List.map_cons, List.map_map]
  congr 1
  · simp
  · refine List.map_congr_left fun n _ => ?_
    simp only [Function.comp_apply, Nat.cast_succ]
    ring

theorem Detector.errors_cons (start step : ℝ) (p : Point ℝ) (points : List (Point ℝ)) :
    errors start step (p :: points) =
      deviation (phase p) start :: errors (start + step) step points := by
  rw [errors, List.length_cons, reference_succ]
  rfl

theorem Detector.errors_append (start step : ℝ) (points more : List (Point ℝ)) :
    errors start step points ++ errors (start + step * points.length) step more =
      errors start step (points ++ more) := by
  induction points generalizing start with
  | nil => simp [errors, reference]
  | cons p rest ih =>
      rw [List.cons_append, errors_cons, errors_cons, ← ih, List.cons_append, List.length_cons]
      congr 3
      push_cast
      ring

theorem Detector.errors_modEq (step : ℝ) (points : List (Point ℝ)) {a b : ℝ}
    (same : a ≡ b [PMOD 2 * Real.pi]) : errors a step points = errors b step points := by
  induction points generalizing a b with
  | nil => rfl
  | cons p rest ih =>
      rw [errors_cons, errors_cons, deviation_modEq _ same, ih (same.add_right step)]

theorem Comparison.leg_periodic (c : Comparison ℝ) : c.leg.Periodic :=
  fun _ _ same => Detector.errors_modEq _ c.points same

theorem Comparison.flatten_unbroken (frequency rate start : ℝ) (pieces : List (List (Point ℝ))) :
    (Leg.unbroken start (pieces.map fun p => (Comparison.mk frequency rate p).leg)).flatten =
      Detector.errors start (Elementary.turn * frequency / rate) pieces.flatten := by
  induction pieces generalizing start with
  | nil => rfl
  | cons p rest ih =>
      rw [List.map_cons, Leg.unbroken, List.flatten_cons, ih, List.flatten_cons]
      exact Detector.errors_append start _ p rest.flatten

end Flowgraph
