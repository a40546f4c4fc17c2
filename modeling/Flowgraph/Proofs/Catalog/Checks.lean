import Flowgraph.Proofs.Block.Running
import Flowgraph.Proofs.Catalog.Builtin

/-!
# What checked parameters leave open

For most built-in block types with a check, parameters in which the check finds
nothing wrong can still be ones that the process fails on: sizes are compared as
they stand and cut to integers afterwards, phases are not looked at, and nothing
keeps a frequency, a rate, a buffer or a spectrum from being too large.
-/

namespace Flowgraph

open Block

namespace Catalog

/--
What the first call of a built-in block asks for beyond parameters that pass its
check.  Filters ask for a prototype that can be scaled, oscillators and phase
detection for a phase that stays finite, and blocks that work on sizes for
sizes that are right as integers; what is not as long as an input needs memory.
-/
def Demands (id : String) (ctx : Context) : Prop :=
  match id with
  | "FIR_FILTER" | "HIGHPASS_FIR" | "LOWPASS_FIR" => Asks ctx (Scales "cutoff" ctx)
  | "BANDPASS_FIR" => Asks ctx (Scales "highCutoff" ctx ∧ Scales "lowCutoff" ctx)
  | "HILBERT_TRANSFORMER" | "INTEGRATOR" => Asks ctx True
  | "GOERTZEL_FILTER" => Asks ctx (FindsBin ctx)
  | "INPUT_SIGNAL" => Room ctx ∧ Advances (startPhase false ctx.params) "frequency" ctx.size ctx
  | "SINE_GEN" | "REF_COSINE_GEN" =>
      Room ctx ∧ Advances (startPhase true ctx.params) "frequency" ctx.size ctx
  | "SLIDING_FFT" => ctx.first.isSome → Hops ctx
  | "PHASE_DETECTOR" => (ctx.first.bind pointGrid? = none → Room ctx) ∧
      ∀ points, ctx.first.bind pointGrid? = some points →
        Advances (.ok 0) "referenceFrequency" (.int points.cells.length) ctx
  | _ => True

/--
A built-in block, its check passed and its record fresh, gives a signal at any
positive rate and for any input that suits it if its demands are met, and fails
otherwise.
-/
theorem checked_returns_iff {d : Descriptor} {params : Params} {ctx : Context} {rate : Int}
    {side : Option SignalType} {record : Option Record} (builtin : d ∈ Builtin.blocks)
    (checks : d.validate.isSome) (noFile : d.id ≠ "AUDIO_FILE") (passed : d.check params = .ok [])
    (overlaid : ctx.params = d.defaults.update params) (rated : ctx.rate = .int rate)
    (positive : 0 < rate) (declared : d.signals.input = .ok side)
    (suits : ctx.Suits (fun _ => True) side) (fresh : d.initialRecord = .ok record) :
    Returns d.process ctx record ↔ Demands d.id ctx := by
  have checked : ∀ validator, d.validate = some (.function validator) →
      validator ctx.params = .ok [] := by
    intro validator known
    rw [overlaid, ← Profile.check_of_validate known]
    exact passed
  have started : ∀ initial, d.newRecord = some (.function initial) → record = initial := by
    intro initial known
    rw [Profile.initialRecord_of_newRecord known] at fresh
    exact (Except.ok.inj fresh).symm
  clear passed overlaid fresh
  simp only [Builtin.blocks, Builtin.filters, Builtin.generators, Builtin.analyzers,
    Builtin.arithmetic, Builtin.displays, List.mem_append, List.mem_cons, List.not_mem_nil,
    or_false, or_assoc] at builtin
  rcases builtin with rfl | rfl | rfl | rfl | rfl | rfl | rfl | rfl | rfl | rfl | rfl | rfl | rfl |
    rfl | rfl | rfl | rfl | rfl | rfl | rfl <;>
    cases declared
  -- Filters.
  · obtain rfl := started _ rfl
    exact returns_fir_iff (fun _ fixed => nomatch fixed) (checked _ rfl) rated positive suits
  · obtain rfl := started _ rfl
    exact returns_bandpass_iff (checked _ rfl) rated positive suits
  · obtain rfl := started _ rfl
    exact returns_fir_iff (fun _ fixed => Option.some.inj fixed ▸ ⟨.highpass, rfl⟩) (checked _ rfl)
      rated positive suits
  · obtain rfl := started _ rfl
    exact returns_fir_iff (fun _ fixed => Option.some.inj fixed ▸ ⟨.lowpass, rfl⟩) (checked _ rfl)
      rated positive suits
  · obtain rfl := started _ rfl
    exact returns_transformer_iff (checked _ rfl) suits
  · exact returns_goertzel_iff (checked _ rfl) rated positive suits
  -- Generators; playback is left out.
  · exact absurd rfl noFile
  · obtain rfl := started _ rfl
    obtain ⟨frequency, amplitude, wave⟩ := Validator.of_inputSignal (checked _ rfl)
    exact returns_oscillator_iff frequency amplitude (fun _ => wave) rated positive suits
  · obtain rfl := started _ rfl
    obtain ⟨frequency, amplitude⟩ := Validator.of_generator (checked _ rfl)
    exact returns_oscillator_iff frequency amplitude nofun rated positive suits
  · obtain rfl := started _ rfl
    obtain ⟨frequency, amplitude⟩ := Validator.of_generator (checked _ rfl)
    exact returns_oscillator_iff frequency amplitude nofun rated positive suits
  -- Analysis and arithmetic; the blocks that nothing checks are left out.
  · exact returns_slidingTransform_iff (checked _ rfl) suits
  · exact iff_of_true (returns_transform (checked _ rfl) suits) trivial
  · exact absurd checks (by decide)
  · obtain rfl := started _ rfl
    exact returns_phaseDetector_iff (checked _ rfl) rated positive suits
  · exact absurd checks (by decide)
  · obtain rfl := started _ rfl
    exact returns_integrator_iff (checked _ rfl) suits
  · exact absurd checks (by decide)
  · exact absurd checks (by decide)
  · exact absurd checks (by decide)
  · exact absurd checks (by decide)

def calling (d : Descriptor) (params : Params) : Context where
  inputs := [some (line [1, 2])]
  params := d.defaults.update params
  rate := .int 48000
  size := .int 2
  machine := .bare

theorem suits_calling (d : Descriptor) (params : Params) :
    (calling d params).Suits (fun _ => True) (some .real) where
  size := ⟨2, rfl, trivial⟩
  inputs := by
    intro type declared s mem
    cases declared
    cases List.mem_singleton.mp mem
    exact .real rfl trivial

def fractions (overlap : Float) : Params :=
  [("windowSize", .float 2.5), ("overlap", .float overlap)]

/-- Of a window and an overlap with fractions, the integers below them count. -/
theorem checked_returns_iff_fractions :
    ∃ d ∈ Builtin.blocks, d.id = "SLIDING_FFT" ∧
      d.check (fractions 2.2) = .ok [] ∧
      ¬ Returns d.process (calling d (fractions 2.2)) none ∧
      d.check (fractions 1.5) = .ok [] ∧ Returns d.process (calling d (fractions 1.5)) none := by
  obtain ⟨d, resolved, same⟩ : ∃ d, Catalog.builtin.resolve "SLIDING_FFT" = some d ∧
      d = Builtin.analyzers[0] := ⟨_, rfl, rfl⟩
  have builtin := mem_blocks_of_resolve resolved
  subst same
  have overlapping : (Builtin.analyzers[0]).check (fractions 2.2) = .ok [] := by rfl
  have hopping : (Builtin.analyzers[0]).check (fractions 1.5) = .ok [] := by rfl
  refine ⟨_, builtin, rfl, overlapping, fun returns => ?_, hopping, ?_⟩
  · obtain ⟨window, overlap, -, wide, shared, -, -, less, -⟩ := (checked_returns_iff builtin rfl
      (by decide) overlapping rfl rfl (by decide) rfl (suits_calling _ _) rfl).mp returns rfl
    have two : window = 2 := (Except.ok.inj wide).symm
    have two' : overlap = 2 := (Except.ok.inj shared).symm
    omega
  · refine (checked_returns_iff builtin rfl (by decide) hopping rfl rfl (by decide) rfl
      (suits_calling _ _) rfl).mpr fun _ => ⟨2, 1, 1024, rfl, rfl, rfl, by decide, by decide, ?_⟩
    exact fun _ _ _ => Memory.reserve_of_lt _ (by decide)

/-- A block size between zero and one passes the check, and a block of no samples is refused. -/
theorem exists_checked_failing :
    ∃ d ∈ Builtin.blocks, d.id = "GOERTZEL_FILTER" ∧ d.validate.isSome ∧
      d.check [("N", .float 0.5)] = .ok [] ∧
      d.signals.input = .ok (some .real) ∧
      (calling d [("N", .float 0.5)]).Suits (fun _ => True) (some .real) ∧
      d.initialRecord = .ok none ∧
      (d.process (calling d [("N", .float 0.5)]) none).2 = .error .goertzelBlock := by
  obtain ⟨d, resolved, same⟩ : ∃ d, Catalog.builtin.resolve "GOERTZEL_FILTER" = some d ∧
      d = Builtin.filters[5] := ⟨_, rfl, rfl⟩
  have builtin := mem_blocks_of_resolve resolved
  subst same
  exact ⟨_, builtin, rfl, rfl, rfl, rfl, suits_calling _ _, rfl, rfl⟩

end Catalog

end Flowgraph
