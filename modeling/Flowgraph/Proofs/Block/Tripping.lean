import Flowgraph.Proofs.Block.Validation
import Flowgraph.Proofs.Value.Misfit

/-!
# Parameters that a check trips over

A check says what is wrong with parameters by its complaints.  On some values it
fails instead: on integers beyond the doubles where it asks for a sign, on
infinities where it asks for a whole number, and on a text for a window when the
overlap is a number.  It fails on nothing else.
-/

namespace Flowgraph

/-- Exactly under a condition a computation fails, and then on the form of a value. -/
abbrev TripsIff {α : Type} (x : Except Fault α) (P : Prop) : Prop :=
  FailsIff (fun _ => False) x P

namespace FailsIff

variable {α : Type} {x : Except Fault α} {P : Prop}

theorem of_failure (h : TripsIff x P) {fault : Fault} (failed : x = .error fault) :
    P ∧ fault.isMisfit = true :=
  (h.of_error fault failed).resolve_left id

theorem returns_iff (h : TripsIff x P) : (∃ a, x = .ok a) ↔ ¬ P := by
  constructor
  · rintro ⟨a, done⟩
    exact h.not_of_eq_ok done
  · intro none
    cases x with
    | ok a => exact ⟨a, rfl⟩
    | error fault => exact absurd (h.of_failure rfl).1 none

/-- Where a computation that never refuses is followed by another, either can trip. -/
theorem followed {β : Type} {f : α → Except Fault β} {Q : Prop} (h : TripsIff x P)
    (next : ∀ a, TripsIff (f a) Q) : TripsIff (x >>= f) (P ∨ Q) := by
  refine (h.bind fun a _ => next a).congr ?_
  rw [exists_and_right, h.returns_iff]
  tauto

end FailsIff

namespace Block

namespace Validator

variable {params : Params}

/-! ## Single checks -/

theorem tripsIff_isPositive (v : Value) : TripsIff (isPositive v) v.Oversized := by
  rw [← Value.toFloat_eq_tooLarge_iff]
  unfold isPositive
  cases v.toFloat with
  | ok x => exact (FailsIff.ok _).congr (iff_of_false id nofun)
  | error fault =>
      cases fault with
      | integerTooLarge => exact (FailsIff.misfit rfl).congr (iff_of_true trivial rfl)
      | _ => exact (FailsIff.ok _).congr (iff_of_false id nofun)

theorem tripsIff_isOrder (v : Value) : TripsIff (isOrder v) v.Infinite := by
  rw [← Value.toInt_eq_infinite_iff]
  unfold isOrder
  cases v.toInt with
  | ok n => exact (FailsIff.ok _).congr (iff_of_false id nofun)
  | error fault =>
      cases fault with
      | infiniteInteger => exact (FailsIff.misfit rfl).congr (iff_of_true trivial rfl)
      | _ => exact (FailsIff.ok _).congr (iff_of_false id nofun)

theorem tripsIff_isPowerOfTwoValue (v : Value) :
    TripsIff (Spectrum.isPowerOfTwoValue v) v.Infinite := by
  rw [← Value.toInt_eq_infinite_iff]
  unfold Spectrum.isPowerOfTwoValue
  cases v.toInt with
  | ok n => cases v.number? <;> exact (FailsIff.ok _).congr (iff_of_false id nofun)
  | error fault =>
      cases fault with
      | infiniteInteger => exact (FailsIff.misfit rfl).congr (iff_of_true trivial rfl)
      | _ => exact (FailsIff.ok _).congr (iff_of_false id nofun)

theorem tripsIff_require {message : String} {test : Except Fault Bool} {P : Prop}
    (h : TripsIff test P) : TripsIff (require message test) P :=
  h.map _

theorem tripsIff_order (label : String) (params : Params) :
    TripsIff (order label params) (params.get "order").Infinite :=
  tripsIff_require (tripsIff_isOrder _)

theorem tripsIff_positive (label key : String) (params : Params) :
    TripsIff (positive label key params) (params.get key).Oversized :=
  tripsIff_require (tripsIff_isPositive _)

theorem tripsIff_cutoffsOrdered (low high : Value) :
    TripsIff (cutoffsOrdered low high)
      (low.Oversized ∨ isPositive low = .ok true ∧ high.Oversized) := by
  have spec : cutoffsOrdered low high = isPositive low >>= fun lower =>
      if !lower then .ok true
      else isPositive high >>= fun upper =>
        if !upper then .ok true
        else low.toFloat >>= fun x => high.toFloat >>= fun y => .ok !(decide (y ≤ x)) := rfl
  rw [spec]
  refine ((tripsIff_isPositive low).bind
    (R := fun lower => lower = true ∧ high.Oversized) fun lower first => ?_).congr (by simp)
  cases lower with
  | false => exact (FailsIff.ok _).congr (by simp)
  | true =>
      refine ((tripsIff_isPositive high).bind (R := fun _ => False) fun upper second => ?_).congr
        (by simp)
      cases upper with
      | false => exact FailsIff.ok _
      | true =>
          obtain ⟨x, lowRead, -⟩ := isPositive_eq_true_iff.mp first
          obtain ⟨y, highRead, -⟩ := isPositive_eq_true_iff.mp second
          rw [lowRead, highRead]
          exact FailsIff.ok _

/-- A window that reads as positive without being a number, with an overlap that is one. -/
def Clashing (window overlap : Value) : Prop :=
  window.number? = none ∧ isPositive window = .ok true ∧
    ∃ n, overlap.number? = some n ∧ n.lt (.int 0) = false

theorem tripsIff_overlap (window given : Value) :
    TripsIff (overlap window given)
      ((∃ n, given.number? = some n ∧ n.lt (.int 0) = false) ∧ window.Oversized ∨
        Clashing window given) := by
  unfold overlap Clashing
  cases number : given.number? with
  | none => exact (FailsIff.ok _).congr (by simp)
  | some n =>
      dsimp only
      cases negative : n.lt (.int 0) with
      | true => exact (FailsIff.ok _).congr (by simp [negative])
      | false =>
          rw [if_neg Bool.false_ne_true]
          refine ((tripsIff_isPositive window).bind
            (R := fun wide => wide = true ∧ window.number? = none) fun wide first => ?_).congr
              (by simp [negative, and_comm])
          cases wide with
          | false => exact (FailsIff.ok _).congr (by simp)
          | true =>
              cases window.number? with
              | none => exact (FailsIff.misfit rfl).congr (by simp)
              | some w => exact (FailsIff.ok _).congr (by simp)

/-! ## Several checks -/

theorem tripsIff_collect_nil : TripsIff (collect []) False :=
  FailsIff.ok []

theorem tripsIff_collect_cons {check : Except Fault (Option String)}
    {rest : List (Except Fault (Option String))} {P Q : Prop} (first : TripsIff check P)
    (later : TripsIff (collect rest) Q) : TripsIff (collect (check :: rest)) (P ∨ Q) :=
  first.followed fun _ => (later.followed fun _ => FailsIff.ok _).congr (iff_of_eq (or_false _))

theorem tripsIff_fir (params : Params) :
    TripsIff (fir params) ((params.get "order").Infinite ∨ (params.get "cutoff").Oversized) :=
  (tripsIff_collect_cons (tripsIff_order _ _) <|
    tripsIff_collect_cons (tripsIff_positive _ _ _) <|
    tripsIff_collect_cons (tripsIff_require (.ok _)) tripsIff_collect_nil).congr (by simp)

theorem tripsIff_bandpass (params : Params) :
    TripsIff (bandpass params) ((params.get "order").Infinite ∨
      (params.get "lowCutoff").Oversized ∨ (params.get "highCutoff").Oversized) :=
  (tripsIff_collect_cons (tripsIff_order _ _) <|
    tripsIff_collect_cons (tripsIff_positive _ _ _) <|
    tripsIff_collect_cons (tripsIff_positive _ _ _) <|
    tripsIff_collect_cons (tripsIff_require (tripsIff_cutoffsOrdered _ _))
      tripsIff_collect_nil).congr (by tauto)

theorem tripsIff_transformer (params : Params) :
    TripsIff (transformer params) (params.get "order").Infinite :=
  (tripsIff_collect_cons (tripsIff_order _ _) tripsIff_collect_nil).congr (iff_of_eq (or_false _))

theorem tripsIff_goertzel (params : Params) :
    TripsIff (goertzel params)
      ((params.get "targetFrequency").Oversized ∨ (params.get "N").Oversized) :=
  (tripsIff_collect_cons (tripsIff_positive _ _ _) <|
    tripsIff_collect_cons (tripsIff_positive _ _ _) tripsIff_collect_nil).congr (by simp)

theorem tripsIff_generator (params : Params) :
    TripsIff (generator params)
      ((params.get "frequency").Oversized ∨ (params.get "amplitude").Oversized) :=
  (tripsIff_collect_cons (tripsIff_positive _ _ _) <|
    tripsIff_collect_cons (tripsIff_positive _ _ _) tripsIff_collect_nil).congr (by simp)

theorem tripsIff_inputSignal (params : Params) :
    TripsIff (inputSignal params)
      ((params.get "frequency").Oversized ∨ (params.get "amplitude").Oversized) :=
  ((tripsIff_generator params).followed fun _ =>
    (tripsIff_collect_cons (tripsIff_require (.ok _)) tripsIff_collect_nil).followed
      fun _ => FailsIff.ok _).congr (by simp)

theorem tripsIff_audioFile (params : Params) : TripsIff (audioFile params) False :=
  (tripsIff_collect_cons (tripsIff_require (.ok _)) <|
    tripsIff_collect_cons (tripsIff_require (.ok _)) tripsIff_collect_nil).congr (by simp)

/-- A size that is a power of two reads as an integer, so only the first look can trip. -/
theorem tripsIff_transform (params : Params) :
    TripsIff (transform params) (params.get "fftSize").Infinite := by
  have spec : transform params =
      Spectrum.isPowerOfTwoValue (params.get "fftSize") >>= fun power =>
        if !power then .ok ["FFT size must be a power of two"]
        else (params.get "fftSize").toInt >>= fun n =>
          if leastTransform ≤ n ∧ n ≤ largestTransform then .ok []
          else .ok [s!"FFT size must be between {leastTransform} and {largestTransform}"] := rfl
  rw [spec]
  refine ((tripsIff_isPowerOfTwoValue _).bind (R := fun _ => False) fun power asked => ?_).congr
    (by simp)
  cases power with
  | false => exact FailsIff.ok _
  | true =>
      obtain ⟨n, read, -⟩ := sized_of_isPowerOfTwoValue asked
      rw [read]
      refine ((FailsIff.ok n).followed fun m => ?_).congr (iff_of_eq (or_self _))
      split <;> exact FailsIff.ok _

theorem tripsIff_slidingTransform (params : Params) :
    TripsIff (slidingTransform params) ((params.get "windowSize").Oversized ∨
      Clashing (params.get "windowSize") (params.get "overlap") ∨
      (params.get "fftSize").Infinite) :=
  (tripsIff_collect_cons (tripsIff_positive _ _ _) <|
    tripsIff_collect_cons (tripsIff_overlap _ _) <|
    tripsIff_collect_cons (tripsIff_require (tripsIff_isPowerOfTwoValue _))
      tripsIff_collect_nil).congr (by tauto)

theorem tripsIff_phaseDetector (params : Params) :
    TripsIff (phaseDetector params) (params.get "referenceFrequency").Oversized :=
  (tripsIff_collect_cons (tripsIff_positive _ _ _) tripsIff_collect_nil).congr
    (iff_of_eq (or_false _))

theorem tripsIff_integrator (params : Params) :
    TripsIff (integrator params)
      ((params.get "resetOnOverflow").isGiven = true ∧ (params.get "maxValue").Oversized) := by
  refine (tripsIff_collect_cons (tripsIff_require (.ok _)) <|
    tripsIff_collect_cons ?_ tripsIff_collect_nil).congr
      (by rw [false_or, or_false])
  split
  · rename_i resets
    exact (tripsIff_require (tripsIff_isPositive _)).congr (by simp [resets])
  · rename_i kept
    exact (FailsIff.ok _).congr (by simp [kept])

end Validator

end Block

end Flowgraph
