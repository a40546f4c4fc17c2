import Flowgraph.Block.Descriptor
import Flowgraph.Proofs.Number.Vanishing

/-!
# Parameters that pass a check

What is known of the parameters of a block in which its check finds nothing
wrong: which of them read as numbers, and of what range.
-/

namespace Flowgraph

namespace Value

@[simp]
theorem toFloat_int (n : Int) : (int n).toFloat = Number.floatOfInt n := rfl

theorem ne_null_of_toFloat {v : Value} {x : Float} (read : v.toFloat = .ok x) : v ≠ .null := by
  rintro rfl
  cases read

theorem ne_null_of_toInt {v : Value} {n : Int} (read : v.toInt = .ok n) : v ≠ .null := by
  rintro rfl
  cases read

end Value

namespace Params

variable {params : Params} {name : String}

theorem getD_eq_get (given : params.get name ≠ .null) (fallback : Value) :
    params.getD name fallback = params.get name := by
  unfold get at given
  unfold get getD
  cases found : params.get? name with
  | none => simp [found] at given
  | some v => rfl

theorem toFloat_getD {x : Float} (read : (params.get name).toFloat = .ok x) (fallback : Value) :
    (params.getD name fallback).toFloat = .ok x := by
  rwa [getD_eq_get (Value.ne_null_of_toFloat read)]

theorem toInt_getD {n : Int} (read : (params.get name).toInt = .ok n) (fallback : Value) :
    (params.getD name fallback).toInt = .ok n := by
  rwa [getD_eq_get (Value.ne_null_of_toInt read)]

end Params

namespace Block

namespace Profile

variable {p : Profile}

theorem check_of_validate {validator : Validator}
    (known : p.validate = some (.function validator)) (params : Params) :
    p.check params = validator (p.defaults.update params) := by
  unfold check
  rw [known]
  rfl

theorem initialRecord_of_newRecord {initial : Option Record}
    (known : p.newRecord = some (.function initial)) : p.initialRecord = .ok initial := by
  unfold initialRecord
  rw [known]
  rfl

end Profile

namespace Validator

variable {params : Params} {v : Value}

/-! ## Single checks -/

theorem require_eq_none_iff {message : String} {test : Except Fault Bool} :
    require message test = .ok none ↔ test = .ok true := by
  rcases test with fault | _ | _ <;> simp [require, Except.map]

theorem collect_eq_nil_iff {checks : List (Except Fault (Option String))} :
    collect checks = .ok [] ↔ ∀ check ∈ checks, check = .ok none := by
  induction checks with
  | nil => simp [collect]
  | cons check rest ih =>
      rw [List.forall_mem_cons, ← ih]
      rcases check with fault | _ | message
      · simp [collect, bind, Except.bind]
      · cases others : collect rest <;> simp [collect, bind, Except.bind, pure, Except.pure, others]
      · cases others : collect rest <;> simp [collect, bind, Except.bind, pure, Except.pure, others]

def Positive (params : Params) (name : String) : Prop :=
  ∃ x, (params.get name).toFloat = .ok x ∧ 0 < x

theorem isPositive_eq_true_iff :
    isPositive v = .ok true ↔ ∃ x, v.toFloat = .ok x ∧ 0 < x := by
  unfold isPositive
  cases read : v.toFloat with
  | ok x => simp
  | error fault => cases fault <;> simp

theorem positive_eq_none_iff {label name : String} :
    positive label name params = .ok none ↔ Positive params name :=
  require_eq_none_iff.trans isPositive_eq_true_iff

def Ordered (params : Params) : Prop :=
  ∃ n, (params.get "order").toInt = .ok n ∧ 1 ≤ n ∧ n ≤ maxOrder

theorem ordered_of_check {label : String} (passed : order label params = .ok none) :
    Ordered params := by
  have whole : isOrder (params.get "order") = .ok true := require_eq_none_iff.mp passed
  unfold isOrder at whole
  split at whole
  · rename_i n read
    simp only [Except.ok.injEq, Bool.and_eq_true, decide_eq_true_eq] at whole
    exact ⟨n, read, whole.1.1, whole.1.2⟩
  · cases whole
  · cases whole

/-! ## Transform sizes -/

/-- A number that is cut to another one than zero is none of the values that do not count. -/
theorem isGiven_of_toInt {x : Number} {n : Int} (number : v.number? = some x)
    (read : v.toInt = .ok n) (some : n ≠ 0) : v.isGiven = true := by
  cases v with
  | bool b =>
      cases b with
      | true => rfl
      | false =>
          cases read
          contradiction
  | int m =>
      cases read
      simpa [Value.isGiven] using some
  | float x =>
      cases zero : x == 0 with
      | false => simp [Value.isGiven, zero]
      | true =>
          have cut : Number.intOfFloat x = .ok n := read
          rw [Number.intOfFloat_of_beq_zero zero] at cut
          cases cut
          contradiction
  | null => cases number
  | text s => cases number
  | list items => cases number
  | object entries => cases number

/-- A size that reads as a power of two; it is not one of the values that do not count. -/
def Sized (v : Value) : Prop :=
  ∃ n, v.toInt = .ok n ∧ Spectrum.isPowerOfTwo n = true ∧ v.isGiven = true

theorem sized_of_isPowerOfTwoValue (power : Spectrum.isPowerOfTwoValue v = .ok true) : Sized v := by
  unfold Spectrum.isPowerOfTwoValue at power
  split at power
  · rename_i n read
    split at power
    · rename_i x number
      simp only [Except.ok.injEq, Bool.and_eq_true] at power
      have some : n ≠ 0 := by
        rintro rfl
        exact absurd power.1 (by decide)
      exact ⟨n, read, power.1, isGiven_of_toInt number read some⟩
    · cases power
  · cases power
  · cases power

/-! ## Checks of blocks -/

theorem of_fir (passed : fir params = .ok []) :
    Ordered params ∧ Positive params "cutoff" ∧
      isOneOf ["lowpass", "highpass"] (params.getD "filterType" (.text "lowpass")) = true := by
  have all := collect_eq_nil_iff.mp passed
  simp only [List.forall_mem_cons] at all
  obtain ⟨order, cutoff, kind, -⟩ := all
  exact ⟨ordered_of_check order, positive_eq_none_iff.mp cutoff,
    Except.ok.inj (require_eq_none_iff.mp kind)⟩

theorem of_bandpass (passed : bandpass params = .ok []) :
    Ordered params ∧ Positive params "lowCutoff" ∧ Positive params "highCutoff" := by
  have all := collect_eq_nil_iff.mp passed
  simp only [List.forall_mem_cons] at all
  obtain ⟨order, low, high, -⟩ := all
  exact ⟨ordered_of_check order, positive_eq_none_iff.mp low, positive_eq_none_iff.mp high⟩

theorem of_transformer (passed : transformer params = .ok []) : Ordered params := by
  have all := collect_eq_nil_iff.mp passed
  exact ordered_of_check (all _ List.mem_cons_self)

theorem of_goertzel (passed : goertzel params = .ok []) :
    Positive params "targetFrequency" ∧ Positive params "N" := by
  have all := collect_eq_nil_iff.mp passed
  simp only [List.forall_mem_cons] at all
  exact ⟨positive_eq_none_iff.mp all.1, positive_eq_none_iff.mp all.2.1⟩

theorem of_generator (passed : generator params = .ok []) :
    Positive params "frequency" ∧ Positive params "amplitude" := by
  have all := collect_eq_nil_iff.mp passed
  simp only [List.forall_mem_cons] at all
  exact ⟨positive_eq_none_iff.mp all.1, positive_eq_none_iff.mp all.2.1⟩

theorem of_inputSignal (passed : inputSignal params = .ok []) :
    Positive params "frequency" ∧ Positive params "amplitude" ∧
      isOneOf ["sine", "cosine"] (params.getD "signalType" (.text "sine")) = true := by
  unfold inputSignal at passed
  obtain ⟨complaints, checked, passed⟩ := of_bind_eq_ok passed
  obtain ⟨more, wave, passed⟩ := of_bind_eq_ok passed
  have none : complaints ++ more = [] := Except.ok.inj passed
  obtain ⟨rfl, rfl⟩ := List.append_eq_nil_iff.mp none
  obtain ⟨frequency, amplitude⟩ := of_generator checked
  have all := collect_eq_nil_iff.mp wave
  exact ⟨frequency, amplitude, Except.ok.inj (require_eq_none_iff.mp (all _ List.mem_cons_self))⟩

theorem of_transform (passed : transform params = .ok []) :
    Sized (params.get "fftSize") ∧
      ∀ n, (params.get "fftSize").toInt = .ok n → n ≤ largestTransform := by
  unfold transform at passed
  obtain ⟨power, asked, passed⟩ := of_bind_eq_ok passed
  cases power with
  | false => cases passed
  | true =>
      refine ⟨sized_of_isPowerOfTwoValue asked, fun n read => ?_⟩
      simp only [read, bind, Except.bind, Bool.not_true, Bool.false_eq_true, if_false] at passed
      by_contra beyond
      rw [if_neg fun within => beyond within.2] at passed
      cases passed

theorem of_slidingTransform (passed : slidingTransform params = .ok []) :
    Positive params "windowSize" ∧ params.get "overlap" ≠ .null ∧
      Sized (params.get "fftSize") := by
  have all := collect_eq_nil_iff.mp passed
  simp only [List.forall_mem_cons] at all
  obtain ⟨window, apart, size, -⟩ := all
  refine ⟨positive_eq_none_iff.mp window, fun none => ?_,
    sized_of_isPowerOfTwoValue (require_eq_none_iff.mp size)⟩
  rw [none] at apart
  cases apart

theorem of_phaseDetector (passed : phaseDetector params = .ok []) :
    Positive params "referenceFrequency" := by
  have all := collect_eq_nil_iff.mp passed
  exact positive_eq_none_iff.mp (all _ List.mem_cons_self)

theorem of_integrator (passed : integrator params = .ok [])
    (resets : (params.get "resetOnOverflow").isGiven = true) : Positive params "maxValue" := by
  have all := collect_eq_nil_iff.mp passed
  simp only [List.forall_mem_cons, if_pos resets] at all
  exact isPositive_eq_true_iff.mp (require_eq_none_iff.mp all.2.1)

end Validator

end Block

end Flowgraph
