import Flowgraph.Catalog.Builtin
import Flowgraph.Proofs.Block.Running
import Flowgraph.Proofs.Block.Sequence
import Flowgraph.Proofs.Phase.Carrying

/-!
# Blocks that carry a phase

Oscillator blocks and phase detectors run the buffers of a carried phase on
doubles.  The same buffers on the real numbers join without a seam.
-/

namespace Flowgraph

open Phase

theorem Tone.advancePhase_eq {rate : Int} {size : Nat} {phase frequency rateHz : Float}
    (positive : 0 < rate) (read : Number.floatOfInt rate = .ok rateHz)
    (counted : Number.floatOfInt size = .ok size) :
    Tone.advancePhase (.float phase) (.float frequency) (.int rate) (.int size) =
      wrap (phase + Elementary.turn * frequency / rateHz * (size : Float)) := by
  have divisible := Number.floatOfInt_ne_zero positive read
  simp only [Tone.advancePhase, Value.factor, Value.number?, Number.toFloat, read, counted,
    divisible, bind, Except.bind]
  rfl

namespace Block

theorem runs_legs {β : Type} {process : Transfer} {put : Float → Record} {ctx : β → Context}
    {leg : β → Leg Float}
    (carries : ∀ b phase, process (ctx b) (some (put phase)) =
      (some (put ((leg b).run phase).1), ((leg b).run phase).2.map line))
    (phase : Float) (buffers : List β) :
    process.outputs (some (put phase)) (buffers.map ctx) =
      (Leg.answers phase (buffers.map leg)).map (·.map line) ∧
    process.recordAfter (some (put phase)) (buffers.map ctx) =
      some (put (Leg.phaseAfter phase (buffers.map leg))) := by
  induction buffers generalizing phase with
  | nil => exact ⟨rfl, rfl⟩
  | cons b rest ih =>
      obtain ⟨outputs, record⟩ := ih ((leg b).run phase).1
      simp only [List.map_cons, Transfer.outputs, Transfer.recordAfter, carries, outputs, record]
      exact ⟨rfl, rfl⟩

/-! ## Oscillators -/

/--
A buffer of an oscillator block, with what its parameters, its rate and its size
read as, and memory for its samples.
-/
structure Sounding (fixedWave : Option Waveform) where
  ctx : Context
  voice : Voice Float
  tone_eq : toneRequest ctx = .ok (voice.tone.frequency, voice.tone.amplitude)
  wave_eq : waveOf fixedWave ctx.params = .ok voice.wave
  rated : Rated ctx voice.tone.rate
  size_eq : ctx.size = .int voice.size
  size_read : Number.floatOfInt voice.size = .ok voice.size
  room : ctx.machine.memory.reserve [voice.size] = .ok ()

variable {fixedWave : Option Waveform} {startParam : Bool}

/-- An oscillator block makes a buffer of the phase that it carries and advances the phase. -/
theorem oscillator_carrying (s : Sounding fixedWave) (phase : Float) :
    oscillator fixedWave startParam s.ctx (some (.oscillator (some phase))) =
      (some (.oscillator (some (s.voice.leg.run phase).1)),
        (s.voice.leg.run phase).2.map line) := by
  have room : s.ctx.machine.memory.reserve [(s.voice.size : Int).toNat] = .ok () := s.room
  simp only [oscillator, s.tone_eq, s.wave_eq, s.rated.rate_eq, s.size_eq, onRecord,
    Option.bind_some, oscillatorRecord?, oscillatorStep, Except.bind,
    generate_eq room s.rated.positive s.rated.read,
    Tone.advancePhase_eq s.rated.positive s.rated.read s.size_read, Leg.run, Voice.leg, Tone.step]
  cases wrap (phase + Elementary.turn * s.voice.tone.frequency / s.voice.tone.rate *
      (s.voice.size : Float)) with
  | error fault => rfl
  | ok after => rfl

theorem oscillator_starting (s : Sounding fixedWave) {phase : Float}
    (start : startPhase startParam s.ctx.params = .ok phase) :
    oscillator fixedWave startParam s.ctx (some (.oscillator none)) =
      oscillator fixedWave startParam s.ctx (some (.oscillator (some phase))) := by
  simp only [startPhase] at start
  simp only [oscillator, s.tone_eq, onRecord, Option.bind_some, oscillatorRecord?, oscillatorStep,
    start]

/-- A phase that a block carries already, or that it starts from with its first buffer. -/
def Starts (startParam : Bool) (phase : Float) (carried : Option Float)
    (soundings : List (Sounding fixedWave)) : Prop :=
  carried = some phase ∨ carried = none ∧
    ∀ first ∈ soundings.head?, startPhase startParam first.ctx.params = .ok phase

/-- Where a phase starts from does not show. -/
theorem Starts.first {phase : Float} {carried : Option Float} {s : Sounding fixedWave}
    {rest : List (Sounding fixedWave)} (starts : Starts startParam phase carried (s :: rest)) :
    oscillator fixedWave startParam s.ctx (some (.oscillator carried)) =
      oscillator fixedWave startParam s.ctx (some (.oscillator (some phase))) := by
  obtain rfl | ⟨rfl, start⟩ := starts
  · rfl
  · exact oscillator_starting s (start s rfl)

/-! ## Phase detectors -/

/-- A buffer of a phase detector, with what its parameters, its rate and its input read as. -/
structure Comparing where
  ctx : Context
  comparison : Comparison Float
  first_eq : ctx.first = some (.complex (.line comparison.points))
  frequency_eq : (ctx.params.getD "referenceFrequency" (.float 1000)).toFloat =
    .ok comparison.frequency
  rated : Rated ctx comparison.rate
  size_read : Number.floatOfInt comparison.points.length = .ok comparison.points.length

theorem phaseErrors_line {rate : Int} {frequency rateHz start : Float} (positive : 0 < rate)
    (read : Number.floatOfInt rate = .ok rateHz) (points : List (Point Float)) :
    Detector.phaseErrors (.line points) (.float frequency) (.int rate) (.float start) =
      .ok (.line (Detector.errors start (Elementary.turn * frequency / rateHz) points)) := by
  have divisible := Number.floatOfInt_ne_zero positive read
  have same : (Detector.reference start (Elementary.turn * frequency / rateHz)
      points.length).length = (points.map Detector.phase).length := by
    simp [Detector.reference]
  simp only [Detector.phaseErrors, Grid.length?_line, Value.toFloat, Value.number?, Number.toFloat,
    read, divisible, Grid.map_line, Bool.false_eq_true, if_false, bind, Except.bind]
  rw [Detector.errors, Grid.alongLast_of_shape Detector.deviation (Grid.shape_line _) same]
  simp

/-- A phase detector compares a buffer with the phase that it carries and advances the phase. -/
theorem phaseDetector_carrying (c : Comparing) (phase : Float) :
    phaseDetector c.ctx (some (.phaseReference phase)) =
      (some (.phaseReference (c.comparison.leg.run phase).1),
        (c.comparison.leg.run phase).2.map line) := by
  simp only [phaseDetector, c.first_eq, Option.bind_some, pointGrid?, c.frequency_eq, onRecord,
    phaseRecord?, phaseDetectorStep, c.rated.rate_eq,
    phaseErrors_line c.rated.positive c.rated.read,
    Grid.shape_line, List.head?_cons, Option.getD_some,
    Tone.advancePhase_eq c.rated.positive c.rated.read c.size_read, Leg.run, Comparison.leg]
  cases wrap (phase + Elementary.turn * c.comparison.frequency / c.comparison.rate *
      (c.comparison.points.length : Float)) with
  | error fault => rfl
  | ok after => rfl

/-! ## Continuity -/

theorem Starts.outputs {phase : Float} {carried : Option Float}
    {soundings : List (Sounding fixedWave)} (starts : Starts startParam phase carried soundings) :
    (oscillator fixedWave startParam).outputs (some (.oscillator carried))
        (soundings.map (·.ctx)) =
      (Leg.answers phase (soundings.map (·.voice.leg))).map (·.map line) ∧
    (soundings ≠ [] →
      (oscillator fixedWave startParam).recordAfter (some (.oscillator carried))
          (soundings.map (·.ctx)) =
        some (.oscillator (some (Leg.phaseAfter phase (soundings.map (·.voice.leg)))))) := by
  cases soundings with
  | nil => exact ⟨rfl, fun none => absurd rfl none⟩
  | cons s rest =>
      obtain ⟨outputs, record⟩ := Transfer.congr_first starts.first (rest.map (·.ctx))
      obtain ⟨outputs', record'⟩ := runs_legs oscillator_carrying phase (s :: rest)
      exact ⟨outputs.trans outputs', fun _ => record.trans record'⟩

/--
Blocks that carry a phase are continuous.  On doubles, oscillator blocks and
phase detectors answer what the legs of their buffers make of the carried phase,
and the kernels that they use make one buffer of a phase in the same way.  On the
real numbers, the buffers are those of a phase that is never wrapped; the
carried phase is in one turn from zero and differs from that phase by whole
turns.  So the buffers of one tone are one run of its samples, and those of a
signal that is cut into pieces are the deviations of the signal.
-/
theorem phased_continuous :
    -- on doubles
    (∀ (fixedWave : Option Waveform) (startParam : Bool) (phase : Float) (carried : Option Float)
        (soundings : List (Sounding fixedWave)), Starts startParam phase carried soundings →
      (oscillator fixedWave startParam).outputs (some (.oscillator carried))
          (soundings.map (·.ctx)) =
        (Leg.answers phase (soundings.map (·.voice.leg))).map (·.map line) ∧
      (soundings ≠ [] →
        (oscillator fixedWave startParam).recordAfter (some (.oscillator carried))
            (soundings.map (·.ctx)) =
          some (.oscillator (some (Leg.phaseAfter phase (soundings.map (·.voice.leg))))))) ∧
    (∀ (phase : Float) (comparings : List Comparing),
      phaseDetector.outputs (some (.phaseReference phase)) (comparings.map (·.ctx)) =
        (Leg.answers phase (comparings.map (·.comparison.leg))).map (·.map line) ∧
      phaseDetector.recordAfter (some (.phaseReference phase)) (comparings.map (·.ctx)) =
        some (.phaseReference (Leg.phaseAfter phase (comparings.map (·.comparison.leg))))) ∧
    (∀ (rate : Int) (rateHz frequency phase : Float), 0 < rate →
      Number.floatOfInt rate = .ok rateHz →
      (∀ (memory : Memory) (wave : Waveform) (amplitude : Float) (count : Int),
        memory.reserve [count.toNat] = .ok () →
        Tone.generate memory wave (.float frequency) (.float amplitude) (.int rate) (.int count)
            (.float phase) =
          .ok ((⟨frequency, amplitude, rateHz⟩ : Tone Float).samples wave phase count.toNat)) ∧
      ∀ points : List (Point Float),
        Detector.phaseErrors (.line points) (.float frequency) (.int rate) (.float phase) =
          .ok (.line (Detector.errors phase (Elementary.turn * frequency / rateHz) points))) ∧
    -- on the real numbers
    (∀ (phase : ℝ) (voices : List (Voice ℝ)),
      Leg.answers phase (voices.map Voice.leg) =
        (Leg.unbroken phase (voices.map Voice.leg)).map .ok) ∧
    (∀ (phase : ℝ) (legs : List (Leg ℝ)),
      (legs ≠ [] → Leg.phaseAfter phase legs ∈ Set.Ico 0 (2 * Real.pi)) ∧
      Leg.phaseAfter phase legs ≡
        phase + (legs.map fun leg => leg.step * (leg.size : ℝ)).sum [PMOD 2 * Real.pi]) ∧
    (∀ (wave : Waveform) (t : Tone ℝ) (phase : ℝ) (sizes : List Nat),
      ∃ buffers : List (List ℝ),
        Leg.answers phase (sizes.map fun n => (Voice.mk wave t n).leg) = buffers.map .ok ∧
        buffers.flatten = t.samples wave phase sizes.sum) ∧
    ∀ (frequency rate phase : ℝ) (pieces : List (List (Point ℝ))),
      ∃ buffers : List (List ℝ),
        Leg.answers phase (pieces.map fun p => (Comparison.mk frequency rate p).leg) =
          buffers.map .ok ∧
        buffers.flatten =
          Detector.errors phase (2 * Real.pi * frequency / rate) pieces.flatten := by
  refine ⟨fun _ _ _ _ _ starts => starts.outputs, runs_legs phaseDetector_carrying,
    fun rate rateHz frequency phase positive read =>
      ⟨fun _ _ _ _ room => generate_eq room positive read, phaseErrors_line positive read⟩,
    fun phase voices => ?_,
    fun phase legs => ⟨Leg.phaseAfter_mem phase, Leg.phaseAfter_modEq phase legs⟩,
    fun wave t phase sizes => ?_, fun frequency rate phase pieces => ?_⟩
  · refine Leg.answers_real ?_ AddCommGroup.modEq_rfl
    simpa using fun v _ => Voice.leg_periodic v
  · refine ⟨_, Leg.answers_real ?_ AddCommGroup.modEq_rfl,
      Voice.flatten_unbroken wave t phase sizes⟩
    simpa using fun n _ => Voice.leg_periodic ⟨wave, t, n⟩
  · refine ⟨_, Leg.answers_real ?_ AddCommGroup.modEq_rfl,
      Comparison.flatten_unbroken frequency rate phase pieces⟩
    simpa using fun p _ => Comparison.leg_periodic ⟨frequency, rate, p⟩

/-- The built-in blocks that carry a phase, and what they start with. -/
example :
    (Catalog.builtin.resolve "SINE_GEN").map (fun d => (d.process, d.initialRecord)) =
        some (oscillator (some .sine) true, .ok (some (.oscillator none))) ∧
      (Catalog.builtin.resolve "REF_COSINE_GEN").map (fun d => (d.process, d.initialRecord)) =
        some (oscillator (some .cosine) true, .ok (some (.oscillator none))) ∧
      (Catalog.builtin.resolve "INPUT_SIGNAL").map (fun d => (d.process, d.initialRecord)) =
        some (oscillator none false, .ok (some (.oscillator none))) ∧
      (Catalog.builtin.resolve "PHASE_DETECTOR").map (fun d => (d.process, d.initialRecord)) =
        some (phaseDetector, .ok (some (.phaseReference 0))) :=
  ⟨rfl, rfl, rfl, rfl⟩

def humming : Sounding (some .sine) where
  ctx :=
    { inputs := []
      params := []
      rate := .int 16000
      size := .int 4
      machine := .bare }
  voice := ⟨.sine, ⟨1000, 1, Float.ofInt 16000⟩, 4⟩
  tone_eq := rfl
  wave_eq := rfl
  rated := ⟨16000, by decide, rfl, rfl⟩
  size_eq := rfl
  size_read := rfl
  room := Memory.reserve_of_lt _ (by decide)

/-- Two buffers of a hum on doubles, and three and five exact samples of one. -/
theorem phased_continuous_humming :
    (oscillator (some .sine) true).outputs (some (.oscillator none)) [humming.ctx, humming.ctx] =
      (Leg.answers 0 [humming.voice.leg, humming.voice.leg]).map (·.map line) ∧
    ∃ buffers : List (List ℝ),
      Leg.answers 0 [(Voice.mk .sine ⟨1000, 1, 8000⟩ 3).leg,
        (Voice.mk .sine ⟨1000, 1, 8000⟩ 5).leg] = buffers.map .ok ∧
      buffers.flatten = (⟨1000, 1, 8000⟩ : Tone ℝ).samples .sine 0 8 := by
  obtain ⟨sounding, -, -, -, -, run, -⟩ := phased_continuous
  refine ⟨?_, run .sine ⟨1000, 1, 8000⟩ 0 [3, 5]⟩
  exact (sounding (some .sine) true 0 none [humming, humming]
    (.inr ⟨rfl, by rintro first ⟨⟩; rfl⟩)).1

end Block

end Flowgraph
