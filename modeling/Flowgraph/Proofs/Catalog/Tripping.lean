import Flowgraph.Proofs.Block.Tripping
import Flowgraph.Proofs.Catalog.Builtin

/-!
# Which parameters the built-in checks trip over

A check looks at parameters over the defaults of its block.  So what it trips
over is described for each block type by the values it finds there.
-/

namespace Flowgraph

open Block Validator

namespace Catalog

/-- The parameters, over the defaults, that the check of a built-in block trips over. -/
def Trips (id : String) (params : Params) : Prop :=
  match id with
  | "FIR_FILTER" | "HIGHPASS_FIR" | "LOWPASS_FIR" =>
      (params.get "order").Infinite ∨ (params.get "cutoff").Oversized
  | "BANDPASS_FIR" =>
      (params.get "order").Infinite ∨ (params.get "lowCutoff").Oversized ∨
        (params.get "highCutoff").Oversized
  | "HILBERT_TRANSFORMER" => (params.get "order").Infinite
  | "GOERTZEL_FILTER" => (params.get "targetFrequency").Oversized ∨ (params.get "N").Oversized
  | "INPUT_SIGNAL" | "SINE_GEN" | "REF_COSINE_GEN" =>
      (params.get "frequency").Oversized ∨ (params.get "amplitude").Oversized
  | "SLIDING_FFT" =>
      (params.get "windowSize").Oversized ∨
        Clashing (params.get "windowSize") (params.get "overlap") ∨
        (params.get "fftSize").Infinite
  | "FFT" => (params.get "fftSize").Infinite
  | "PHASE_DETECTOR" => (params.get "referenceFrequency").Oversized
  | "INTEGRATOR" =>
      (params.get "resetOnOverflow").isGiven = true ∧ (params.get "maxValue").Oversized
  | _ => False

theorem tripsIff_check {d : Descriptor} (builtin : d ∈ Builtin.blocks) (params : Params) :
    TripsIff (d.check params) (Trips d.id (d.defaults.update params)) := by
  have checked : ∀ {validator P}, d.validate = some (.function validator) →
      TripsIff (validator (d.defaults.update params)) P → TripsIff (d.check params) P := by
    intro validator P known trips
    rwa [Profile.check_of_validate known]
  have unchecked : d.validate = none → TripsIff (d.check params) False := by
    intro none
    have accepts : d.check params = .ok [] := by
      unfold Profile.check
      rw [none]
    rw [accepts]
    exact FailsIff.ok []
  simp only [Builtin.blocks, Builtin.filters, Builtin.generators, Builtin.analyzers,
    Builtin.arithmetic, Builtin.displays, List.mem_append, List.mem_cons, List.not_mem_nil,
    or_false, or_assoc] at builtin
  rcases builtin with rfl | rfl | rfl | rfl | rfl | rfl | rfl | rfl | rfl | rfl | rfl | rfl | rfl |
    rfl | rfl | rfl | rfl | rfl | rfl | rfl
  -- Filters.
  · exact checked rfl (tripsIff_fir _)
  · exact checked rfl (tripsIff_bandpass _)
  · exact checked rfl (tripsIff_fir _)
  · exact checked rfl (tripsIff_fir _)
  · exact checked rfl (tripsIff_transformer _)
  · exact checked rfl (tripsIff_goertzel _)
  -- Generators.
  · exact checked rfl (tripsIff_audioFile _)
  · exact checked rfl (tripsIff_inputSignal _)
  · exact checked rfl (tripsIff_generator _)
  · exact checked rfl (tripsIff_generator _)
  -- Analysis, arithmetic and displays; half of them are not checked.
  · exact checked rfl (tripsIff_slidingTransform _)
  · exact checked rfl (tripsIff_transform _)
  · exact unchecked rfl
  · exact checked rfl (tripsIff_phaseDetector _)
  · exact unchecked rfl
  · exact checked rfl (tripsIff_integrator _)
  · exact unchecked rfl
  · exact unchecked rfl
  · exact unchecked rfl
  · exact unchecked rfl

def Stumbles (blockType : String) (params : Params) : Prop :=
  ∃ d, builtin.resolve blockType = some d ∧ Trips d.id (d.defaults.update params)

theorem tripsIff_checkParams (blockType : String) (params : Params) :
    TripsIff (builtin.checkParams blockType params) (Stumbles blockType params) := by
  unfold checkParams Stumbles
  cases resolved : builtin.resolve blockType with
  | none => exact (FailsIff.ok _).congr (by simp)
  | some d => exact (tripsIff_check (mem_blocks_of_resolve resolved) params).congr (by simp)

/--
For any block type, known or not, and any parameters the check lists complaints
unless it stumbles, and whatever it fails on then is the form of a value, not a
complaint of its own.
-/
theorem checkParams_returns_iff (blockType : String) (params : Params) :
    ((∃ complaints, builtin.checkParams blockType params = .ok complaints) ↔
      ¬ Stumbles blockType params) ∧
    ∀ fault, builtin.checkParams blockType params = .error fault → fault.isMisfit = true := by
  have trips := tripsIff_checkParams blockType params
  constructor
  · exact trips.returns_iff
  · intro fault failed
    exact (trips.of_failure failed).2

/-- A cutoff beyond the doubles is no positive frequency, and is not reported as one. -/
theorem not_exists_checkParams_cutoff :
    ¬ ∃ complaints, builtin.checkParams "FIR_FILTER" [("cutoff", .int (10 ^ 400))] =
      .ok complaints := by
  rw [(tripsIff_checkParams _ _).returns_iff, not_not]
  have beyond : (Float.ofInt (10 ^ 400)).isInf = true := by decide +kernel
  refine ⟨Builtin.filters[0], rfl, ?_⟩
  change _ ∨ ((Builtin.filters[0].defaults.update [("cutoff", .int (10 ^ 400))]).get
    "cutoff").Oversized
  exact .inr ⟨10 ^ 400, rfl, beyond⟩

end Catalog

end Flowgraph
