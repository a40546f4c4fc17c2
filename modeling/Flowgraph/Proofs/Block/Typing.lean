import Flowgraph.Block.Analyzing
import Flowgraph.Block.Combining
import Flowgraph.Block.Descriptor
import Flowgraph.Block.Filtering
import Flowgraph.Block.Generating
import Flowgraph.Proofs.Block.Pieces
import Flowgraph.Proofs.Block.Streams
import Flowgraph.Proofs.Memory

/-!
# Blocks keep to their declared signals

A block that is given buffers of the kind it declares gives a buffer of the
kind it declares, along one axis.  What lengths there are is left open: all
blocks but one give a buffer as long as some buffer that they have been given,
or as long as the buffer size.
-/

namespace Flowgraph

/-- A buffer of a declared kind along one axis, of a length that is allowed. -/
inductive Signal.Fits (allowed : Nat → Prop) : SignalType → Signal → Prop where
  | real {g : Grid Float} {n : Nat} (shape : g.shape = [n]) (length : allowed n) :
      Fits allowed .real (.real g)
  | complex {g : Grid (Point Float)} {n : Nat} (shape : g.shape = [n]) (length : allowed n) :
      Fits allowed .complex (.complex g)

namespace Block

variable {allowed : Nat → Prop} {ctx : Context} {input : Option SignalType} {record : Option Record}
  {out : Signal} {memory : Memory}

theorem fits_line {samples : List Float} (length : allowed samples.length) :
    (line samples).Fits allowed .real :=
  .real rfl length

theorem fits_pointLine {points : List (Point Float)} (length : allowed points.length) :
    (pointLine points).Fits allowed .complex :=
  .complex rfl length

theorem fits_silence {n : Nat} (length : allowed n)
    (quiet : Signal.silence memory (.int n) = .ok out) : out.Fits allowed .real := by
  obtain ⟨-, rfl⟩ := silence_eq_ok_iff.mp quiet
  exact fits_line (by rwa [List.length_replicate])

theorem fits_origin {n : Nat} (length : allowed n)
    (quiet : Signal.origin memory (.int n) = .ok out) : out.Fits allowed .complex := by
  obtain ⟨-, rfl⟩ := origin_eq_ok_iff.mp quiet
  exact fits_pointLine (by rwa [List.length_replicate])

/-- A context with a buffer size that is allowed and inputs that fit a declared kind. -/
structure Context.Suits (allowed : Nat → Prop) (input : Option SignalType) (ctx : Context) :
    Prop where
  size : ∃ n : Nat, ctx.size = .int n ∧ allowed n
  inputs : ∀ type, input = some type → ∀ s, some s ∈ ctx.inputs → s.Fits allowed type

/-- Given what it declares, a process gives what it declares. -/
def KeepsTo (allowed : Nat → Prop) (signature : Signature) (process : Transfer) : Prop :=
  ∀ ctx record out, ctx.Suits allowed signature.input → (process ctx record).2 = .ok out →
    ∀ type, signature.output = some type → out.Fits allowed type

theorem keepsTo_sink (input : Option SignalType) (process : Transfer) :
    KeepsTo allowed ⟨input, none⟩ process := by
  intro ctx record out _ _ type declared
  cases declared

/-! ## Inputs -/

namespace Context

theorem Suits.silence (suits : ctx.Suits allowed input) (quiet : ctx.silence = .ok out) :
    out.Fits allowed .real := by
  obtain ⟨n, size, length⟩ := suits.size
  rw [Context.silence, size] at quiet
  exact fits_silence length quiet

theorem Suits.origin (suits : ctx.Suits allowed input)
    (quiet : Signal.origin memory ctx.size = .ok out) : out.Fits allowed .complex := by
  obtain ⟨n, size, length⟩ := suits.size
  rw [size] at quiet
  exact fits_origin length quiet

theorem Suits.first {type : SignalType} (suits : ctx.Suits allowed (some type)) {s : Signal}
    (first : ctx.first = some s) : s.Fits allowed type := by
  refine suits.inputs type rfl s ?_
  unfold Context.first at first
  cases h : ctx.inputs with
  | nil => simp [h] at first
  | cons input rest =>
      rw [h] at first
      rw [show input = some s from first]
      exact List.mem_cons_self

end Context

theorem shape_of_realGrid {s : Signal} {g : Grid Float} (fits : s.Fits allowed .real)
    (read : realGrid s = .ok g) : ∃ n, g.shape = [n] ∧ allowed n := by
  cases fits with
  | real shape length =>
      cases read
      exact ⟨_, shape, length⟩

theorem lines_of_realInputs (suits : ctx.Suits allowed (some .real)) {gs : List (Grid Float)}
    {buffers : List (List Float)} (read : ctx.realInputs = .ok gs)
    (cut : gs.mapM Grid.line? = .ok buffers) :
    buffers.length = gs.length ∧ ∀ b ∈ buffers, allowed b.length := by
  have shapes : ∀ g ∈ gs, ∃ n, g.shape = [n] ∧ allowed n := by
    refine (of_mapM_eq_ok read fun s mem g taken => ?_).2
    obtain ⟨i, mem, rfl⟩ := List.mem_filterMap.mp mem
    exact shape_of_realGrid (suits.inputs .real rfl s mem) taken
  refine of_mapM_eq_ok cut fun g mem b taken => ?_
  obtain ⟨n, shape, length⟩ := shapes g mem
  rw [Grid.line?_of_shape shape] at taken
  cases taken
  rwa [Grid.length_cells shape]

/-! ## Processes with a record -/

section

variable {σ β : Type} {get? : Record → Option σ} {put : σ → Record} {wanted : String}
  {step : σ → σ × Except Fault β}

theorem of_onRecord {b : β} (done : (onRecord get? put wanted record step).2 = .ok b) :
    ∃ s, (step s).2 = .ok b := by
  unfold onRecord at done
  cases found : record.bind get? with
  | none =>
      rw [found] at done
      cases done
  | some s =>
      rw [found] at done
      exact ⟨s, done⟩

theorem of_onRecord_map {f : β → Signal}
    (done : (onRecord get? put wanted record step).2.map f = .ok out) :
    ∃ s b, (step s).2 = .ok b ∧ out = f b := by
  obtain ⟨b, taken, same⟩ := of_map_eq_ok done
  obtain ⟨s, stepped⟩ := of_onRecord taken
  exact ⟨s, b, stepped, same⟩

end

/-! ## Displays and unknown blocks -/

/-- A process that listens to its first input and is silent without one. -/
theorem keepsTo_ofFirst {process : Transfer}
    (quiet : ∀ {ctx record}, ctx.first = none → (process ctx record).2 = ctx.silence)
    (heard : ∀ {ctx record s out}, ctx.first = some s → s.Fits allowed .real →
      (process ctx record).2 = .ok out → out.Fits allowed .real) :
    KeepsTo allowed ⟨some .real, some .real⟩ process := by
  intro ctx record out suits done type declared
  cases declared
  cases first : ctx.first with
  | none =>
      rw [quiet first] at done
      exact suits.silence done
  | some s => exact heard first (suits.first first) done

theorem keepsTo_passFirst : KeepsTo allowed ⟨some .real, some .real⟩ passFirst := by
  refine keepsTo_ofFirst ?_ ?_
  · intro ctx record none
    simp only [passFirst, stateless, none]
  · intro ctx record s out first fits done
    simp only [passFirst, stateless, first] at done
    cases done
    exact fits

/-! ## Generators -/

theorem length_generate {wave : Waveform} {frequency amplitude rate phase : Value} {n : Nat}
    {samples : List Float}
    (made : Tone.generate memory wave frequency amplitude rate (.int n) phase = .ok samples) :
    samples.length = n := by
  unfold Tone.generate at made
  obtain ⟨_, read, made⟩ := of_bind_eq_ok made
  cases read
  obtain ⟨count, counted, made⟩ := of_bind_eq_ok made
  obtain ⟨tone, -, made⟩ := of_bind_eq_ok made
  obtain ⟨phase, -, made⟩ := of_bind_eq_ok made
  cases made
  obtain ⟨-, rfl⟩ := memory.rangeLength_eq_ok_iff.mp counted
  simp [Tone.samples]

theorem length_oscillatorStep {wave : Except Fault Waveform} {frequency amplitude : Float}
    {rate : Value} {start : Except Fault Float} {phase : Option Float} {n : Nat} {samples : List Float}
    (done : (oscillatorStep memory wave frequency amplitude rate (.int n) start phase).2 =
      .ok samples) :
    samples.length = n := by
  unfold oscillatorStep at done
  dsimp only at done
  split at done
  · cases done
  · split at done
    · cases done
    · rename_i made
      split at done
      · cases done
      · cases done
        obtain ⟨wave, -, made⟩ := of_bind_eq_ok made
        exact length_generate made

theorem keepsTo_oscillator (fixedWave : Option Waveform) (startParam : Bool) :
    KeepsTo allowed ⟨none, some .real⟩ (oscillator fixedWave startParam) := by
  intro ctx record out suits done type declared
  cases declared
  obtain ⟨n, size, length⟩ := suits.size
  unfold oscillator at done
  rcases requested : toneRequest ctx with fault | ⟨frequency, amplitude⟩
  · rw [requested] at done
    cases done
  · rw [requested] at done
    obtain ⟨phase, samples, stepped, rfl⟩ := of_onRecord_map done
    refine fits_line ?_
    rw [length_oscillatorStep (size ▸ stepped)]
    exact length

theorem fits_playMedium {loop : Bool} {n : Nat} {p : Audio.Playback} (length : allowed n)
    (played : (playMedium memory loop (.int n) p).2 = .ok out) : out.Fits allowed .real := by
  unfold playMedium at played
  cases quiet : Signal.silence memory (.int n) with
  | error fault =>
      rw [quiet] at played
      cases played
  | ok silence =>
      rw [quiet] at played
      rcases medium : p.medium with _ | source | other
      · rw [medium] at played
        cases played
        exact fits_silence length quiet
      · simp only [medium, playSource] at played
        split at played
        · cases played
          exact fits_silence length quiet
        · cases played
          refine fits_line ?_
          rw [Audio.Playback.length_fill]
          exact length
      · rw [medium] at played
        cases played

theorem keepsTo_audioFile : KeepsTo allowed ⟨none, some .real⟩ audioFile := by
  intro ctx record out suits done type declared
  cases declared
  obtain ⟨n, size, length⟩ := suits.size
  obtain ⟨p, stepped⟩ := of_onRecord done
  unfold playbackStep at stepped
  dsimp only at stepped
  split at stepped
  · cases stepped
  · rw [size] at stepped
    exact fits_playMedium length stepped

/-! ## Filters -/

theorem length_streamed {key : Filter.DesignKey} {design : Unit → Except Fault (List Float)}
    {buffer : Grid Float} {s : StreamFilter} {n : Nat} {samples : List Float}
    (shape : buffer.shape = [n]) (done : (streamed key design buffer s).2 = .ok samples) :
    samples.length = n := by
  unfold streamed at done
  rcases prepared : s.prepare key design with ⟨s', fault | ready⟩
  · rw [prepared] at done
    cases done
  · simp only [prepared, Grid.line?_of_shape shape, Filter.Stream.feed] at done
    cases done
    rw [Filter.Stream.output, Filter.length_apply, Grid.length_cells shape]

theorem buffer_of_firRequest {fixedKind : Option String} {s : Signal}
    {step : StreamFilter → StreamFilter × Except Fault (List Float)}
    (requested : firRequest fixedKind ctx s = .ok step) :
    ∃ kind order cutoff rate buffer,
      realGrid s = .ok buffer ∧
        step = firStep ctx.machine.memory kind order cutoff rate buffer := by
  unfold firRequest at requested
  obtain ⟨order, -, requested⟩ := of_bind_eq_ok requested
  obtain ⟨cutoff, -, requested⟩ := of_bind_eq_ok requested
  obtain ⟨kind, -, requested⟩ := of_bind_eq_ok requested
  obtain ⟨buffer, read, requested⟩ := of_bind_eq_ok requested
  obtain ⟨rate, -, requested⟩ := of_bind_eq_ok requested
  cases requested
  exact ⟨_, order, cutoff, rate, buffer, read, rfl⟩

theorem keepsTo_fir (fixedKind : Option String) :
    KeepsTo allowed ⟨some .real, some .real⟩ (fir fixedKind) := by
  refine keepsTo_ofFirst ?_ ?_
  · intro ctx record none
    simp only [fir, none]
  · intro ctx record s out first fits done
    cases requested : firRequest fixedKind ctx s with
    | error fault =>
        simp only [fir, first, requested] at done
        cases done
    | ok step =>
        simp only [fir, first, requested] at done
        obtain ⟨filter, samples, stepped, rfl⟩ := of_onRecord_map done
        obtain ⟨_, _, _, _, buffer, read, rfl⟩ := buffer_of_firRequest requested
        obtain ⟨n, shape, length⟩ := shape_of_realGrid fits read
        refine fits_line ?_
        rwa [length_streamed shape stepped]

theorem length_bandpassStep {order : Int} {low high : Float} {rate : Key} {buffer : Grid Float}
    {filters : StreamFilter × StreamFilter} {n : Nat} {samples : List Float}
    (shape : buffer.shape = [n])
    (done : (bandpassStep memory order low high rate buffer filters).2 = .ok samples) :
    samples.length = n := by
  unfold bandpassStep at done
  rcases above : firStep memory "lowpass" order high rate buffer filters.1 with ⟨upper, fault | more⟩
  · rw [above] at done
    cases done
  rcases below : firStep memory "lowpass" order low rate buffer filters.2 with ⟨lower, fault | less⟩
  · rw [above, below] at done
    cases done
  rw [above, below] at done
  cases done
  have upper : more.length = n := length_streamed shape (congrArg (·.2) above)
  have lower : less.length = n := length_streamed shape (congrArg (·.2) below)
  simp [upper, lower]

theorem buffer_of_bandpassRequest {s : Signal}
    {step : StreamFilter × StreamFilter →
      (StreamFilter × StreamFilter) × Except Fault (List Float)}
    (requested : bandpassRequest ctx s = .ok step) :
    ∃ order low high rate buffer,
      realGrid s = .ok buffer ∧
        step = bandpassStep ctx.machine.memory order low high rate buffer := by
  unfold bandpassRequest at requested
  obtain ⟨buffer, read, requested⟩ := of_bind_eq_ok requested
  obtain ⟨order, -, requested⟩ := of_bind_eq_ok requested
  obtain ⟨low, -, requested⟩ := of_bind_eq_ok requested
  obtain ⟨high, -, requested⟩ := of_bind_eq_ok requested
  obtain ⟨rate, -, requested⟩ := of_bind_eq_ok requested
  cases requested
  exact ⟨order, low, high, rate, buffer, read, rfl⟩

theorem keepsTo_bandpass : KeepsTo allowed ⟨some .real, some .real⟩ bandpass := by
  refine keepsTo_ofFirst ?_ ?_
  · intro ctx record none
    simp only [bandpass, none]
  · intro ctx record s out first fits done
    cases requested : bandpassRequest ctx s with
    | error fault =>
        simp only [bandpass, first, requested] at done
        cases done
    | ok step =>
        simp only [bandpass, first, requested] at done
        obtain ⟨filters, samples, stepped, rfl⟩ := of_onRecord_map done
        obtain ⟨_, _, _, _, buffer, read, rfl⟩ := buffer_of_bandpassRequest requested
        obtain ⟨n, shape, length⟩ := shape_of_realGrid fits read
        refine fits_line ?_
        rwa [length_bandpassStep shape stepped]

theorem keepsTo_transformer : KeepsTo allowed ⟨some .real, some .complex⟩ transformer := by
  intro ctx record out suits done type declared
  cases declared
  unfold transformer at done
  cases first : ctx.first with
  | none =>
      rw [first] at done
      exact suits.origin done
  | some s =>
      rw [first] at done
      cases requested : transformerRequest ctx s with
      | error fault =>
          simp only [requested] at done
          cases done
      | ok step =>
          simp only [requested] at done
          obtain ⟨filter, points, stepped, rfl⟩ := of_onRecord_map done
          unfold transformerRequest at requested
          obtain ⟨buffer, read, requested⟩ := of_bind_eq_ok requested
          obtain ⟨order, -, requested⟩ := of_bind_eq_ok requested
          cases requested
          obtain ⟨n, shape, length⟩ := shape_of_realGrid (suits.first first) read
          obtain ⟨samples, filtered, rfl⟩ := of_map_eq_ok stepped
          refine fits_pointLine ?_
          simpa [Point.zip, Grid.length_cells shape, length_streamed shape filtered] using length

theorem length_detect {coefficient : Float} {n : Nat} {samples : List Float} :
    (Goertzel.detect coefficient n samples).length = samples.length := by
  fun_induction Goertzel.detect coefficient n samples with
  | case1 => rfl
  | case2 x rest block ih =>
      simp only [List.length_append, List.length_replicate, ih, block, List.length_cons,
        List.length_take, List.length_drop]
      omega

theorem length_goertzel {buffer : Grid Float} {frequency rate block : Value} {n : Nat}
    {samples : List Float} (shape : buffer.shape = [n])
    (done : Goertzel.run buffer frequency rate block = .ok samples) : samples.length = n := by
  unfold Goertzel.run at done
  rw [Grid.line?_of_shape shape] at done
  obtain ⟨cells, read, done⟩ := of_bind_eq_ok done
  cases read
  obtain ⟨count, -, done⟩ := of_bind_eq_ok done
  dsimp only at done
  split at done
  · cases done
  obtain ⟨frequency, -, done⟩ := of_bind_eq_ok done
  obtain ⟨size, -, done⟩ := of_bind_eq_ok done
  obtain ⟨rate, -, done⟩ := of_bind_eq_ok done
  split at done
  · cases done
  split at done
  · cases done
  split at done
  · cases done
  cases done
  rw [length_detect, Grid.length_cells shape]

theorem keepsTo_goertzel : KeepsTo allowed ⟨some .real, some .real⟩ goertzel := by
  refine keepsTo_ofFirst ?_ ?_
  · intro ctx record none
    simp only [goertzel, stateless, none]
  · intro ctx record s out first fits done
    simp only [goertzel, stateless, first] at done
    obtain ⟨frequency, -, done⟩ := of_bind_eq_ok done
    obtain ⟨size, -, done⟩ := of_bind_eq_ok done
    obtain ⟨buffer, read, done⟩ := of_bind_eq_ok done
    obtain ⟨samples, detected, done⟩ := of_bind_eq_ok done
    cases done
    obtain ⟨n, shape, length⟩ := shape_of_realGrid fits read
    refine fits_line ?_
    rwa [length_goertzel shape detected]

/-! ## Arithmetic -/

theorem length_integratorStep {limit : Option Float} {s : Signal} {buffer : Grid Float}
    {total : Float} {n : Nat} {samples : List Float} (read : realGrid s = .ok buffer)
    (shape : buffer.shape = [n]) (done : (integratorStep limit s total).2 = .ok samples) :
    samples.length = n := by
  simp only [integratorStep, read, Except.bind, Grid.line?_of_shape shape, Integrator.feed] at done
  cases done
  rw [Integrator.length_integrate, Grid.length_cells shape]

theorem keepsTo_integrator : KeepsTo allowed ⟨some .real, some .real⟩ integrator := by
  refine keepsTo_ofFirst ?_ ?_
  · intro ctx record none
    simp only [integrator, none]
  · intro ctx record s out first fits done
    cases limited : limitRequest ctx.params with
    | error fault =>
        simp only [integrator, first, limited] at done
        cases done
    | ok limit =>
        simp only [integrator, first, limited] at done
        obtain ⟨total, samples, stepped, rfl⟩ := of_onRecord_map done
        cases fits with
        | real shape length =>
            refine fits_line ?_
            rwa [length_integratorStep rfl shape stepped]

theorem keepsTo_summer : KeepsTo allowed ⟨some .real, some .real⟩ summer := by
  intro ctx record out suits done type declared
  cases declared
  simp only [summer, stateless] at done
  obtain ⟨gs, read, done⟩ := of_bind_eq_ok done
  split at done
  · exact suits.silence done
  · rename_i some
    obtain ⟨buffers, cut, done⟩ := of_bind_eq_ok done
    cases done
    obtain ⟨count, lengths⟩ := lines_of_realInputs suits read cut
    refine fits_line ?_
    rw [Mixing.length_sum]
    cases buffers with
    | nil => exact absurd (by simpa using count.symm) some
    | cons b rest => exact lengths b List.mem_cons_self

theorem keepsTo_multiplier : KeepsTo allowed ⟨some .real, some .real⟩ multiplier := by
  intro ctx record out suits done type declared
  cases declared
  simp only [multiplier, stateless] at done
  obtain ⟨gs, read, done⟩ := of_bind_eq_ok done
  split at done
  · exact suits.silence done
  · rename_i several
    obtain ⟨buffers, cut, done⟩ := of_bind_eq_ok done
    cases done
    obtain ⟨count, lengths⟩ := lines_of_realInputs suits read cut
    have some : buffers ≠ [] := by
      rintro rfl
      simp at count
      omega
    obtain ⟨b, mem, length⟩ := Mixing.exists_length_product some
    refine fits_line ?_
    rw [length]
    exact lengths b mem

/-! ## Analysis -/

theorem zeros_negSucc {α : Type} [OfNat α 0] (n : Nat) :
    Grid.zeros (α := α) memory (.int (.negSucc n)) = .error .negativeLength := by
  simp [Grid.zeros, Grid.readShape, Grid.readAxes, Grid.maxRank, bind, Except.bind, pure,
    Except.pure, throw, throwThe, MonadExceptOf.throw]

theorem keepsTo_transform (all : ∀ n, allowed n) :
    KeepsTo allowed ⟨some .real, some .complex⟩ transform := by
  intro ctx record out suits done type declared
  cases declared
  simp only [transform, stateless] at done
  obtain ⟨size, -, done⟩ := of_bind_eq_ok done
  cases first : ctx.first with
  | none =>
      rw [first] at done
      dsimp only at done
      generalize size / 2 + 1 = bins at done
      cases bins with
      | ofNat n => exact fits_origin (all n) done
      | negSucc n =>
          rw [Signal.origin, Point.zeros, zeros_negSucc] at done
          cases done
  | some s =>
      rw [first] at done
      obtain ⟨buffer, -, done⟩ := of_bind_eq_ok done
      obtain ⟨samples, -, done⟩ := of_bind_eq_ok done
      obtain ⟨points, -, done⟩ := of_bind_eq_ok done
      cases done
      exact fits_pointLine (all _)

theorem shape_phaseErrors {points : Grid (Point Float)} {frequency rate start : Value}
    {errors : Grid Float} {n : Nat} (shape : points.shape = [n])
    (done : Detector.phaseErrors points frequency rate start = .ok errors) :
    errors.shape = [n] := by
  have length : points.length? = .ok n := by rw [Grid.length?, shape]
  have angles : (points.map Detector.phase).shape = [n] := shape
  unfold Detector.phaseErrors at done
  rw [length] at done
  obtain ⟨count, counted, done⟩ := of_bind_eq_ok done
  cases counted
  obtain ⟨start, -, done⟩ := of_bind_eq_ok done
  obtain ⟨frequency, -, done⟩ := of_bind_eq_ok done
  obtain ⟨rate, -, done⟩ := of_bind_eq_ok done
  dsimp only at done
  split at done
  · cases done
  · rw [Grid.alongLast_of_shape _ angles (by simp [Detector.reference])] at done
    cases done
    simp [Grid.shape_line, Grid.length_cells shape, Detector.reference]

theorem Context.Suits.points (suits : ctx.Suits allowed (some .complex))
    {points : Grid (Point Float)} (read : ctx.first.bind pointGrid? = some points) :
    ∃ n, points.shape = [n] ∧ allowed n := by
  obtain ⟨s, first, grid⟩ := Option.bind_eq_some_iff.mp read
  have fits := suits.first first
  cases fits with
  | complex shape length =>
      cases grid
      exact ⟨_, shape, length⟩

theorem keepsTo_phaseDetector : KeepsTo allowed ⟨some .complex, some .real⟩ phaseDetector := by
  intro ctx record out suits done type declared
  cases declared
  unfold phaseDetector at done
  cases read : ctx.first.bind pointGrid? with
  | none =>
      rw [read] at done
      exact suits.silence done
  | some points =>
      obtain ⟨n, shape, length⟩ := suits.points read
      rw [read] at done
      cases frequency : (ctx.params.getD "referenceFrequency" (.float 1000)).toFloat with
      | error fault =>
          simp only [frequency] at done
          cases done
      | ok f =>
          simp only [frequency] at done
          obtain ⟨phase, errors, stepped, rfl⟩ := of_onRecord_map done
          refine .real ?_ length
          unfold phaseDetectorStep at stepped
          split at stepped
          · cases stepped
          · rename_i detected
            split at stepped
            · cases stepped
            · cases stepped
              exact shape_phaseErrors shape detected

theorem length_frequencies {rate : Float} {angles : List Float} :
    (Detector.frequencies rate angles).length = angles.length := by
  have count : (Detector.differences rate angles).length = angles.length - 1 := by
    simp [Detector.differences]
  unfold Detector.frequencies
  cases last : (Detector.differences rate angles).getLast? with
  | none => rw [List.length_map]
  | some f =>
      have some : Detector.differences rate angles ≠ [] := by
        intro none
        rw [none] at last
        cases last
      have positive := List.length_pos_iff.mpr some
      rw [List.length_append, List.length_singleton]
      omega

theorem length_frequencyTrack {points : Grid (Point Float)} {rate : Value} {samples : List Float}
    {n : Nat} (shape : points.shape = [n])
    (done : Detector.frequencyTrack points rate = .ok samples) : samples.length = n := by
  have length : points.length? = .ok n := by rw [Grid.length?, shape]
  unfold Detector.frequencyTrack at done
  rw [length] at done
  obtain ⟨count, counted, done⟩ := of_bind_eq_ok done
  cases counted
  dsimp only at done
  split at done
  · cases done
    exact List.length_replicate
  obtain ⟨rate, -, done⟩ := of_bind_eq_ok done
  split at done
  · cases done
  · cases done
    rw [length_frequencies, List.length_map, points.size_eq, shape]
    simp

theorem keepsTo_frequencyDetector :
    KeepsTo allowed ⟨some .complex, some .real⟩ frequencyDetector := by
  intro ctx record out suits done type declared
  cases declared
  simp only [frequencyDetector, stateless] at done
  cases read : ctx.first.bind pointGrid? with
  | none =>
      rw [read] at done
      exact suits.silence done
  | some points =>
      obtain ⟨n, shape, length⟩ := suits.points read
      rw [read] at done
      obtain ⟨samples, tracked, rfl⟩ := of_map_eq_ok done
      refine fits_line ?_
      rwa [length_frequencyTrack shape tracked]

end Block

end Flowgraph
