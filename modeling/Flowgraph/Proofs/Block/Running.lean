import Flowgraph.Proofs.Block.Typing
import Flowgraph.Proofs.Block.Validation
import Flowgraph.Proofs.Filter.Design
import Flowgraph.Proofs.Number.Rounding
import Flowgraph.Proofs.Spectrum.PowerOfTwo

/-!
# When a block returns

A check of parameters and the process it is for read the same values by
different rules, and a process also reads what its check leaves alone.  For each
process this is the exact condition under which its first call, on parameters
that pass the check, gives a signal.
-/

namespace Flowgraph

@[simp]
theorem throw_eq_error {α : Type} (fault : Fault) : (throw fault : Except Fault α) = .error fault :=
  rfl

theorem exists_map_eq_ok_iff {α β : Type} {x : Except Fault α} {f : α → β} :
    (∃ b, x.map f = .ok b) ↔ ∃ a, x = .ok a := by
  cases x <;> simp [Except.map]

namespace Block

open Elementary Validator

def Returns (process : Transfer) (ctx : Context) (record : Option Record) : Prop :=
  ∃ out, (process ctx record).2 = .ok out

variable {ctx : Context} {rate : Int} {allowed : Nat → Prop} {input : Option SignalType}

/-! ## Inputs and silence -/

def Room (ctx : Context) : Prop :=
  ∃ n : Nat, ctx.size = .int n ∧ ctx.machine.memory.reserve [n] = .ok ()

/-- What a call asks for: without an input it is room for silence. -/
def Asks (ctx : Context) (demand : Prop) : Prop :=
  (ctx.first = none → Room ctx) ∧ (ctx.first.isSome → demand)

theorem room_iff {n : Nat} (size : ctx.size = .int n) :
    Room ctx ↔ ctx.machine.memory.reserve [n] = .ok () := by
  refine ⟨?_, fun reserved => ⟨n, size, reserved⟩⟩
  rintro ⟨m, same, reserved⟩
  cases size.symm.trans same
  exact reserved

theorem Context.Suits.exists_silence_iff (suits : ctx.Suits allowed input) :
    (∃ out, ctx.silence = .ok out) ↔ Room ctx := by
  obtain ⟨n, size, -⟩ := suits.size
  rw [room_iff size, Context.silence, size]
  simp [silence_eq_ok_iff]

theorem Context.Suits.exists_origin_iff (suits : ctx.Suits allowed input) :
    (∃ out, Signal.origin ctx.machine.memory ctx.size = .ok out) ↔ Room ctx := by
  obtain ⟨n, size, -⟩ := suits.size
  rw [room_iff size, size]
  simp [origin_eq_ok_iff]

theorem Context.Suits.real (suits : ctx.Suits allowed (some .real)) {s : Signal}
    (first : ctx.first = some s) : ∃ g n, s = .real g ∧ g.shape = [n] := by
  cases suits.first first with
  | real shape _ => exact ⟨_, _, rfl, shape⟩

/-- A process that is silent without an input has other demands on its first input only. -/
theorem returns_iff_of_first {process : Transfer} {record : Option Record} {demand : Prop}
    (quiet : ctx.first = none → (Returns process ctx record ↔ Room ctx))
    (heard : ∀ s, ctx.first = some s → (Returns process ctx record ↔ demand)) :
    Returns process ctx record ↔ Asks ctx demand := by
  unfold Asks
  cases first : ctx.first with
  | none => simp [quiet first]
  | some s => simp [heard s first]

/-! ## Filters -/

theorem exists_streamed_fresh_iff {key : Filter.DesignKey}
    {design : Unit → Except Fault (List Float)} {buffer : Grid Float} {n : Nat}
    (shape : buffer.shape = [n]) :
    (∃ samples, (streamed key design buffer .fresh).2 = .ok samples) ↔
      ∃ taps, design () = .ok taps := by
  unfold streamed Filter.Stream.prepare
  cases made : design () with
  | error fault => simp [Filter.Stream.fresh, Filter.Stream.designedFor]
  | ok taps =>
      simp [Filter.Stream.fresh, Filter.Stream.designedFor, Grid.line?_of_shape shape]

/-- The order and a cutoff among the parameters make a prototype that can be scaled. -/
def Scales (name : String) (ctx : Context) : Prop :=
  ∃ n cutoff rate, (ctx.params.get "order").toInt = .ok n ∧
    (ctx.params.get name).toFloat = .ok cutoff ∧ ctx.rate.toFloat = .ok rate ∧
    Filter.Scalable n.toNat cutoff rate

theorem exists_firStep_fresh_iff {kind name : String} {response : Filter.Response} {n : Int}
    {cutoff : Float} {buffer : Grid Float} {length : Nat} (rated : ctx.rate = .int rate)
    (positive : 0 < rate) (order : (ctx.params.get "order").toInt = .ok n) (least : 1 ≤ n)
    (most : n ≤ maxOrder) (read : (ctx.params.get name).toFloat = .ok cutoff)
    (known : Filter.Response.ofName? kind = some response) (shape : buffer.shape = [length]) :
    (∃ samples, (firStep ctx.machine.memory kind n cutoff (.int rate) buffer .fresh).2 =
      .ok samples) ↔ Scales name ctx := by
  unfold firStep
  rw [exists_streamed_fresh_iff shape]
  refine (Filter.exists_design_iff least most positive known).trans ?_
  unfold Scales
  rw [order, read, rated]
  constructor
  · rintro ⟨rateHz, taken, scalable⟩
    exact ⟨n, cutoff, rateHz, rfl, rfl, taken, scalable⟩
  · rintro ⟨_, _, rateHz, same, same', taken, scalable⟩
    cases same
    cases same'
    exact ⟨rateHz, taken, scalable⟩

theorem returns_fir_real_iff {fixedKind : Option String} {kind : String} {n : Int} {cutoff : Float}
    {buffer : Grid Float} (rated : ctx.rate = .int rate)
    (order : (ctx.params.get "order").toInt = .ok n)
    (read : (ctx.params.get "cutoff").toFloat = .ok cutoff)
    (chosen : kindOf fixedKind ctx.params = .ok kind)
    (first : ctx.first = some (.real buffer)) :
    Returns (fir fixedKind) ctx (some (.filter .fresh)) ↔
      ∃ samples, (firStep ctx.machine.memory kind n cutoff (.int rate) buffer .fresh).2 =
        .ok samples := by
  have requested : firRequest fixedKind ctx (.real buffer) =
      .ok (firStep ctx.machine.memory kind n cutoff (.int rate) buffer) := by
    simp only [firRequest, Params.toInt_getD order, Params.toFloat_getD read, chosen, realGrid,
      rated, Value.toKey, bind, Except.bind, pure, Except.pure]
  unfold Returns fir
  simp only [first, requested]
  exact exists_map_eq_ok_iff

theorem exists_text_of_isOneOf {v : Value} {names : List String}
    (listed : isOneOf names v = true) : ∃ s ∈ names, v.toText = .ok s := by
  cases v with
  | text s => exact ⟨s, by simpa [isOneOf] using listed, rfl⟩
  | _ => cases listed

theorem exists_known_of_isOneOf {v : Value} (listed : isOneOf ["lowpass", "highpass"] v = true) :
    ∃ kind response, v.toText = .ok kind ∧ Filter.Response.ofName? kind = some response := by
  obtain ⟨kind, mem, written⟩ := exists_text_of_isOneOf listed
  rcases List.mem_pair.mp mem with rfl | rfl
  · exact ⟨_, .lowpass, written, rfl⟩
  · exact ⟨_, .highpass, written, rfl⟩

theorem returns_fir_iff {fixedKind : Option String}
    (fixed : ∀ kind ∈ fixedKind, ∃ response, Filter.Response.ofName? kind = some response)
    (passed : Validator.fir ctx.params = .ok []) (rated : ctx.rate = .int rate)
    (positive : 0 < rate) (suits : ctx.Suits allowed (some .real)) :
    Returns (fir fixedKind) ctx (some (.filter .fresh)) ↔ Asks ctx (Scales "cutoff" ctx) := by
  obtain ⟨⟨n, order, least, most⟩, ⟨cutoff, read, -⟩, listed⟩ := of_fir passed
  have known : ∃ kind response, kindOf fixedKind ctx.params = .ok kind ∧
      Filter.Response.ofName? kind = some response := by
    cases fixedKind with
    | none => exact exists_known_of_isOneOf listed
    | some kind =>
        obtain ⟨response, known⟩ := fixed kind rfl
        exact ⟨kind, response, rfl, known⟩
  obtain ⟨kind, response, chosen, known⟩ := known
  refine returns_iff_of_first (fun none => ?_) fun s first => ?_
  · simpa only [Returns, fir, none] using suits.exists_silence_iff
  · obtain ⟨buffer, length, rfl, shape⟩ := suits.real first
    rw [returns_fir_real_iff rated order read chosen first]
    exact exists_firStep_fresh_iff rated positive order least most read known shape

theorem returns_bandpass_real_iff {n : Int} {low high : Float} {buffer : Grid Float}
    (rated : ctx.rate = .int rate) (order : (ctx.params.get "order").toInt = .ok n)
    (readLow : (ctx.params.get "lowCutoff").toFloat = .ok low)
    (readHigh : (ctx.params.get "highCutoff").toFloat = .ok high)
    (first : ctx.first = some (.real buffer)) :
    Returns bandpass ctx (some (.bandpass .fresh .fresh)) ↔
      ∃ samples, (bandpassStep ctx.machine.memory n low high (.int rate) buffer
        (.fresh, .fresh)).2 = .ok samples := by
  have requested : bandpassRequest ctx (.real buffer) =
      .ok (bandpassStep ctx.machine.memory n low high (.int rate) buffer) := by
    simp only [bandpassRequest, Params.toInt_getD order, Params.toFloat_getD readLow,
      Params.toFloat_getD readHigh, realGrid, rated, Value.toKey, bind, Except.bind, pure,
      Except.pure]
  unfold Returns bandpass
  simp only [first, requested]
  exact exists_map_eq_ok_iff

theorem returns_bandpass_iff (passed : Validator.bandpass ctx.params = .ok [])
    (rated : ctx.rate = .int rate) (positive : 0 < rate)
    (suits : ctx.Suits allowed (some .real)) :
    Returns bandpass ctx (some (.bandpass .fresh .fresh)) ↔
      Asks ctx (Scales "highCutoff" ctx ∧ Scales "lowCutoff" ctx) := by
  obtain ⟨⟨n, order, least, most⟩, ⟨low, readLow, -⟩, ⟨high, readHigh, -⟩⟩ := of_bandpass passed
  refine returns_iff_of_first (fun none => ?_) fun s first => ?_
  · simpa only [Returns, bandpass, none] using suits.exists_silence_iff
  · obtain ⟨buffer, length, rfl, shape⟩ := suits.real first
    have above : (∃ samples, (firStep ctx.machine.memory "lowpass" n high (.int rate) buffer
        .fresh).2 = .ok samples) ↔ Scales "highCutoff" ctx :=
      exists_firStep_fresh_iff rated positive order least most readHigh rfl shape
    have below : (∃ samples, (firStep ctx.machine.memory "lowpass" n low (.int rate) buffer
        .fresh).2 = .ok samples) ↔ Scales "lowCutoff" ctx :=
      exists_firStep_fresh_iff rated positive order least most readLow rfl shape
    rw [returns_bandpass_real_iff rated order readLow readHigh first, ← above, ← below]
    unfold bandpassStep
    rcases firStep ctx.machine.memory "lowpass" n high (.int rate) buffer .fresh with
      ⟨upper, fault | more⟩
    · simp
    · rcases firStep ctx.machine.memory "lowpass" n low (.int rate) buffer .fresh with
        ⟨lower, fault | less⟩
      · simp
      · simp

/-- The quadrature filter of a checked order can always be designed. -/
theorem returns_transformer_iff (passed : Validator.transformer ctx.params = .ok [])
    (suits : ctx.Suits allowed (some .real)) :
    Returns transformer ctx (some (.filter .fresh)) ↔ Asks ctx True := by
  obtain ⟨n, order, least, most⟩ := of_transformer passed
  refine returns_iff_of_first (fun none => ?_) fun s first => iff_of_true ?_ trivial
  · simpa only [Returns, transformer, none] using suits.exists_origin_iff
  · obtain ⟨buffer, length, rfl, shape⟩ := suits.real first
    have requested : transformerRequest ctx (.real buffer) =
        .ok (transformerStep ctx.machine.memory n buffer) := by
      simp only [transformerRequest, Params.toInt_getD order, realGrid, bind, Except.bind, pure,
        Except.pure]
    have filtered : ∃ samples, (streamed [.text "hilbert", .int n]
        (fun () => Filter.designQuadrature ctx.machine.memory (.int n)) buffer .fresh).2 =
          .ok samples :=
      (exists_streamed_fresh_iff shape).mpr (Filter.exists_designQuadrature least most)
    unfold Returns transformer
    simp only [first, requested]
    exact exists_map_eq_ok_iff.mpr (exists_map_eq_ok_iff.mpr filtered)

/-! ## Single bins -/

/--
The block size among the parameters reads as a positive integer, and that many
samples have a bin nearest to the frequency at an angle that is not infinite.
-/
def FindsBin (ctx : Context) : Prop :=
  ∃ (n : Int) (size frequency rate : Float) (k : Int),
    (ctx.params.get "N").toInt = .ok n ∧ 0 < n ∧ Number.floatOfInt n = .ok size ∧
    (ctx.params.get "targetFrequency").toFloat = .ok frequency ∧ ctx.rate.toFloat = .ok rate ∧
    Goertzel.bin? n.toNat frequency rate = some k ∧
    infinite (Goertzel.angularStep n.toNat k : Float) = false

theorem exists_goertzelRun_iff {buffer : Grid Float} {n : Int} {frequency : Float} {length : Nat}
    (positive : 0 < rate) (shape : buffer.shape = [length]) :
    (∃ samples, Goertzel.run buffer (.float frequency) (.int rate) (.int n) = .ok samples) ↔
      ∃ (size rateHz : Float) (k : Int), 0 < n ∧ Number.floatOfInt n = .ok size ∧
        Number.floatOfInt rate = .ok rateHz ∧
        Goertzel.bin? n.toNat frequency rateHz = some k ∧
        infinite (Goertzel.angularStep n.toNat k : Float) = false := by
  unfold Goertzel.run
  simp only [Grid.line?_of_shape shape, Value.toInt, Value.toFloat, Value.number?, Number.toInt,
    Number.toFloat, bind, Except.bind]
  by_cases none : n ≤ 0
  · simp [none]
  have whole : ((n.toNat : Nat) : Int) = n := Int.toNat_of_nonneg (by omega)
  simp only [if_neg none, whole]
  cases sized : Number.floatOfInt n with
  | error fault => simp
  | ok size =>
      cases read : Number.floatOfInt rate with
      | error fault => simp
      | ok rateHz =>
          have divisible := Number.floatOfInt_ne_zero positive read
          simp only [divisible]
          cases found : Goertzel.bin? n.toNat frequency rateHz with
          | none => simp [found]
          | some k =>
              have positive' : 0 < n := by omega
              cases far : infinite (Goertzel.angularStep n.toNat k : Float) with
              | true => simp [found, far]
              | false => simp [pure, Except.pure, found, far, positive']

theorem returns_goertzel_iff {record : Option Record}
    (passed : Validator.goertzel ctx.params = .ok []) (rated : ctx.rate = .int rate)
    (positive : 0 < rate) (suits : ctx.Suits allowed (some .real)) :
    Returns goertzel ctx record ↔ Asks ctx (FindsBin ctx) := by
  obtain ⟨⟨frequency, read, -⟩, ⟨_, readSize, -⟩⟩ := of_goertzel passed
  refine returns_iff_of_first (fun none => ?_) fun s first => ?_
  · simpa only [Returns, goertzel, stateless, none] using suits.exists_silence_iff
  · obtain ⟨buffer, length, rfl, shape⟩ := suits.real first
    have given := Params.getD_eq_get (Value.ne_null_of_toFloat readSize) (.int 256)
    cases counted : (ctx.params.get "N").toInt with
    | error fault =>
        have fails : ¬ Returns goertzel ctx record := by
          simp [Returns, goertzel, stateless, first, Params.toFloat_getD read, given, counted,
            bind, Except.bind]
        simp [fails, FindsBin, counted]
    | ok n =>
        have call : (goertzel ctx record).2 =
            (Goertzel.run buffer (.float frequency) (.int rate) (.int n)).map line := by
          simp only [goertzel, stateless, first, Params.toFloat_getD read, given, counted, rated,
            realGrid, bind, Except.bind]
          rfl
        rw [Returns, call, exists_map_eq_ok_iff, exists_goertzelRun_iff positive shape]
        simp [FindsBin, counted, read, rated]

/-! ## Oscillators -/

/--
The phase after some frames of an oscillation, from a start phase on, is not
infinite, and all that it is computed from reads as a double.
-/
def Advances (start : Except Fault Float) (name : String) (frames : Value) (ctx : Context) :
    Prop :=
  ∃ phase frequency rate count, start = .ok phase ∧
    (ctx.params.get name).toFloat = .ok frequency ∧ ctx.rate.toFloat = .ok rate ∧
    frames.toFloat = .ok count ∧
    infinite (phase + (⟨frequency, 1, rate⟩ : Tone Float).step * count) = false

def startPhase (startParam : Bool) (params : Params) : Except Fault Float :=
  if startParam then (params.getD "phase" (.float 0)).toFloat else .ok 0

theorem exists_advancePhase_iff {p f : Float} {n : Int} (positive : 0 < rate) :
    (∃ after, Tone.advancePhase (.float p) (.float f) (.int rate) (.int n) = .ok after) ↔
      ∃ rateHz count, Number.floatOfInt rate = .ok rateHz ∧ Number.floatOfInt n = .ok count ∧
        infinite (p + (⟨f, 1, rateHz⟩ : Tone Float).step * count) = false := by
  simp only [Tone.advancePhase, Value.factor, Value.number?, Number.toFloat, bind, Except.bind]
  cases read : Number.floatOfInt rate with
  | error fault => simp
  | ok rateHz =>
      have divisible := Number.floatOfInt_ne_zero positive read
      simp only [divisible]
      cases counted : Number.floatOfInt n with
      | error fault => simp
      | ok count =>
          cases far : infinite (p + (⟨f, 1, rateHz⟩ : Tone Float).step * count) with
          | true => simp [Tone.advance, Phase.wrap, far]
          | false => simp [Tone.advance, Phase.wrap, far]

theorem generate_eq {memory : Memory} {wave : Waveform} {frequency amplitude phase rateHz : Float}
    {count : Int} (room : memory.reserve [count.toNat] = .ok ()) (positive : 0 < rate)
    (read : Number.floatOfInt rate = .ok rateHz) :
    Tone.generate memory wave (.float frequency) (.float amplitude) (.int rate) (.int count)
      (.float phase) =
        .ok ((⟨frequency, amplitude, rateHz⟩ : Tone Float).samples wave phase count.toNat) := by
  have divisible := Number.floatOfInt_ne_zero positive read
  have ranged := memory.rangeLength_eq_ok_iff.mpr ⟨room, rfl⟩
  simp only [Tone.generate, Tone.ofValues, Value.toInt, Value.toFloat, Value.number?, Number.toInt,
    Number.toFloat, read, divisible, ranged, bind, Except.bind]
  rfl

theorem exists_generate_iff {memory : Memory} {wave : Waveform} {frequency amplitude phase : Float}
    {count : Nat} (positive : 0 < rate) :
    (∃ samples, Tone.generate memory wave (.float frequency) (.float amplitude) (.int rate)
        (.int count) (.float phase) = .ok samples) ↔
      memory.reserve [count] = .ok () ∧ ∃ rateHz, Number.floatOfInt rate = .ok rateHz := by
  constructor
  · rintro ⟨samples, made⟩
    obtain ⟨_, ⟨⟩, made⟩ := of_bind_eq_ok made
    obtain ⟨n, ranged, made⟩ := of_bind_eq_ok made
    obtain ⟨tone, read, -⟩ := of_bind_eq_ok made
    obtain ⟨_, -, read⟩ := of_bind_eq_ok read
    obtain ⟨_, -, read⟩ := of_bind_eq_ok read
    obtain ⟨rateHz, read, -⟩ := of_bind_eq_ok read
    exact ⟨(memory.rangeLength_eq_ok_iff.mp ranged).1, rateHz, read⟩
  · rintro ⟨room, rateHz, read⟩
    exact ⟨_, generate_eq room positive read⟩

theorem exists_oscillatorStep_iff {memory : Memory} {wave : Waveform} {frequency amplitude : Float}
    {size : Nat} {start : Except Fault Float} (positive : 0 < rate) :
    (∃ samples, (oscillatorStep memory (.ok wave) frequency amplitude (.int rate) (.int size) start
        none).2 = .ok samples) ↔
      memory.reserve [size] = .ok () ∧
      ∃ phase rateHz count, start = .ok phase ∧ Number.floatOfInt rate = .ok rateHz ∧
        Number.floatOfInt size = .ok count ∧
        infinite (phase + (⟨frequency, 1, rateHz⟩ : Tone Float).step * count) = false := by
  unfold oscillatorStep
  cases start with
  | error fault => simp
  | ok phase =>
      have advances := exists_advancePhase_iff (f := frequency) (p := phase) (n := size) positive
      have makes : (∃ samples, Tone.generate memory wave (.float frequency) (.float amplitude)
          (.int rate) (.int size) (.float phase) = .ok samples) ↔ _ := exists_generate_iff positive
      simp only [Except.bind]
      cases made : Tone.generate memory wave (.float frequency) (.float amplitude) (.int rate)
          (.int size) (.float phase) with
      | error fault =>
          rw [made] at makes
          simp only [reduceCtorEq, exists_false, false_iff, not_and, not_exists] at makes ⊢
          rintro there _ rateHz _ - read
          exact absurd read (makes there rateHz)
      | ok samples =>
          obtain ⟨there, -⟩ := makes.mp ⟨samples, made⟩
          cases advanced : Tone.advancePhase (.float phase) (.float frequency) (.int rate)
              (.int size) with
          | error fault => simpa [advanced, there] using advances
          | ok after => simpa [advanced, there] using advances

theorem exists_waveOf {fixedWave : Option Waveform} {params : Params}
    (known : fixedWave = none → isOneOf ["sine", "cosine"]
      (params.getD "signalType" (.text "sine")) = true) :
    ∃ wave, waveOf fixedWave params = .ok wave := by
  cases fixedWave with
  | some wave => exact ⟨wave, rfl⟩
  | none =>
      obtain ⟨name, -, written⟩ := exists_text_of_isOneOf (known rfl)
      exact exists_map_eq_ok_iff.mpr ⟨name, written⟩

theorem returns_oscillator_iff {fixedWave : Option Waveform} {startParam : Bool}
    (frequency : Positive ctx.params "frequency") (amplitude : Positive ctx.params "amplitude")
    (known : fixedWave = none → isOneOf ["sine", "cosine"]
      (ctx.params.getD "signalType" (.text "sine")) = true)
    (rated : ctx.rate = .int rate) (positive : 0 < rate) (suits : ctx.Suits allowed input) :
    Returns (oscillator fixedWave startParam) ctx (some (.oscillator none)) ↔
      Room ctx ∧ Advances (startPhase startParam ctx.params) "frequency" ctx.size ctx := by
  obtain ⟨wave, chosen⟩ := exists_waveOf known
  obtain ⟨f, readFrequency, -⟩ := frequency
  obtain ⟨a, readAmplitude, -⟩ := amplitude
  obtain ⟨size, sized, -⟩ := suits.size
  have requested : toneRequest ctx = .ok (f, a) := by
    simp only [toneRequest, Params.toFloat_getD readFrequency, Params.toFloat_getD readAmplitude,
      bind, Except.bind, pure, Except.pure]
  have call : Returns (oscillator fixedWave startParam) ctx (some (.oscillator none)) ↔
      ∃ samples, (oscillatorStep ctx.machine.memory (.ok wave) f a (.int rate) (.int size)
        (startPhase startParam ctx.params) none).2 = .ok samples := by
    unfold Returns oscillator
    simp only [requested, chosen, rated, sized]
    exact exists_map_eq_ok_iff
  rw [call, exists_oscillatorStep_iff positive, room_iff sized]
  simp [Advances, readFrequency, rated, sized]

/-! ## Phase detection -/

theorem exists_phaseDetectorStep_iff {points : Grid (Point Float)} {frequency phase : Float}
    {n : Nat} (positive : 0 < rate) (shape : points.shape = [n]) :
    (∃ errors, (phaseDetectorStep points frequency (.int rate) phase).2 = .ok errors) ↔
      ∃ rateHz count, Number.floatOfInt rate = .ok rateHz ∧ Number.floatOfInt n = .ok count ∧
        infinite (phase + (⟨frequency, 1, rateHz⟩ : Tone Float).step * count) = false := by
  have length : points.length? = .ok n := by rw [Grid.length?, shape]
  have advances := exists_advancePhase_iff (f := frequency) (p := phase) (n := n) positive
  unfold phaseDetectorStep Detector.phaseErrors
  simp only [length, shape, Value.toFloat, Value.number?, Number.toFloat, bind, Except.bind,
    List.head?_cons, Option.getD_some]
  cases read : Number.floatOfInt rate with
  | error fault => simp
  | ok rateHz =>
      have divisible := Number.floatOfInt_ne_zero positive read
      have referenced : ∀ step : Float, (Detector.reference phase step n).length = n := by
        simp [Detector.reference]
      have compared := Grid.alongLast_of_shape Detector.deviation (g := points.map Detector.phase)
        shape (referenced (turn * frequency / rateHz))
      simp only [divisible, compared]
      rw [read] at advances
      cases advanced : Tone.advancePhase (.float phase) (.float frequency) (.int rate)
          (.int n) with
      | error fault => simpa [advanced] using advances
      | ok after => simpa [advanced] using advances

theorem returns_phaseDetector_iff (passed : Validator.phaseDetector ctx.params = .ok [])
    (rated : ctx.rate = .int rate) (positive : 0 < rate)
    (suits : ctx.Suits allowed (some .complex)) :
    Returns phaseDetector ctx (some (.phaseReference 0)) ↔
      (ctx.first.bind pointGrid? = none → Room ctx) ∧
      ∀ points, ctx.first.bind pointGrid? = some points →
        Advances (.ok 0) "referenceFrequency" (.int points.cells.length) ctx := by
  obtain ⟨frequency, read, -⟩ := of_phaseDetector passed
  cases first : ctx.first.bind pointGrid? with
  | none =>
      have quiet : Returns phaseDetector ctx (some (.phaseReference 0)) ↔ Room ctx := by
        simpa only [Returns, phaseDetector, first] using suits.exists_silence_iff
      simp [quiet]
  | some points =>
      obtain ⟨n, shape, -⟩ := suits.points first
      have call : Returns phaseDetector ctx (some (.phaseReference 0)) ↔
          ∃ errors, (phaseDetectorStep points frequency (.int rate) 0).2 = .ok errors := by
        unfold Returns phaseDetector
        simp only [first, Params.toFloat_getD read, rated]
        exact exists_map_eq_ok_iff
      rw [call, exists_phaseDetectorStep_iff positive shape]
      simp [Advances, read, rated, Grid.length_cells shape]

/-! ## Transforms -/

theorem isGiven_of_power {n : Int} (power : Spectrum.isPowerOfTwo n = true) :
    (Value.int n).isGiven = true := by
  by_cases zero : n = 0
  · rw [zero] at power
    exact absurd power (by decide)
  · simpa [Value.isGiven] using zero

theorem sizeOf_of_power {n : Int} (power : Spectrum.isPowerOfTwo n = true) (length : Nat) :
    Spectrum.sizeOf (.int n) length = .ok n.toNat := by
  rw [Spectrum.sizeOf_of_given (isGiven_of_power power) rfl, if_pos power]

theorem returns_transform {record : Option Record}
    (passed : Validator.transform ctx.params = .ok []) (suits : ctx.Suits allowed (some .real)) :
    Returns transform ctx record := by
  obtain ⟨⟨n, read, power, given⟩, most⟩ := of_transform passed
  have chosen : ((ctx.params.get "fftSize").orElse ctx.size).toInt = .ok n := by
    rwa [Value.orElse, if_pos given]
  have positive : 0 < n := by
    simp only [Spectrum.isPowerOfTwo, Bool.and_eq_true, decide_eq_true_eq] at power
    exact power.1
  have few : n.toNat < Nat.pow 2 17 := by
    have largest := most n read
    have : largestTransform < Nat.pow 2 17 := by decide
    omega
  cases first : ctx.first with
  | none =>
      have bins : ((n / 2 + 1).toNat : Int) = n / 2 + 1 := by omega
      have fewer : (n / 2 + 1).toNat < Nat.pow 2 17 := by omega
      have reserved := ctx.machine.memory.reserve_of_lt fewer
      have silent := (origin_eq_ok_iff (s := _)).mpr ⟨reserved, rfl⟩
      rw [bins] at silent
      exact ⟨_, by simpa only [transform, stateless, chosen, first, bind, Except.bind] using silent⟩
  | some s =>
      obtain ⟨buffer, length, rfl, shape⟩ := suits.real first
      have reserved := ctx.machine.memory.reserve_of_lt few
      simp [Returns, transform, stateless, chosen, first, realGrid, Grid.line?_of_shape shape,
        Spectrum.transform, sizeOf_of_power power, reserved, bind, Except.bind, pure, Except.pure]

/--
Window and overlap among the parameters read as integers of which the overlap is
the smaller, and a spectrum fits if there is a window to make one of.
-/
def Hops (ctx : Context) : Prop :=
  ∃ window overlap size : Int, (ctx.params.get "windowSize").toInt = .ok window ∧
    (ctx.params.get "overlap").toInt = .ok overlap ∧
    (ctx.params.get "fftSize").toInt = .ok size ∧ 0 < window ∧ overlap < window ∧
    ∀ buffer, ctx.first = some (.real buffer) → window ≤ buffer.cells.length →
      ctx.machine.memory.reserve [size.toNat] = .ok ()

theorem exists_slide_iff {memory : Memory} {buffer : Grid Float} {window hop size : Int}
    {length : Nat} (shape : buffer.shape = [length])
    (power : Spectrum.isPowerOfTwo size = true) :
    (∃ frames, Spectrum.slide memory buffer (.int window) (.int hop) (.int size) = .ok frames) ↔
      0 < window ∧ 0 < hop ∧
        (window ≤ buffer.cells.length → memory.reserve [size.toNat] = .ok ()) := by
  unfold Spectrum.slide
  simp only [Grid.line?_of_shape shape, Value.toInt, Value.number?, Number.toInt,
    isGiven_of_power power, sizeOf_of_power power, bind, Except.bind, if_true]
  by_cases narrow : window ≤ 0
  · simp [narrow]
  by_cases still : hop ≤ 0
  · simp [narrow, still]
  have wide : 0 < window := by omega
  have moving : 0 < hop := by omega
  by_cases short : buffer.cells.length < window.toNat
  · have none : ¬ window ≤ buffer.cells.length := by omega
    simp [narrow, still, short, wide, moving, none, pure, Except.pure]
  · have some : window ≤ buffer.cells.length := by omega
    cases reserved : memory.reserve [size.toNat] with
    | error fault => simp [narrow, still, short, some]
    | ok => simp [narrow, still, short, wide, moving, pure, Except.pure]

theorem returns_slidingTransform_iff {record : Option Record}
    (passed : Validator.slidingTransform ctx.params = .ok [])
    (suits : ctx.Suits allowed (some .real)) :
    Returns slidingTransform ctx record ↔ (ctx.first.isSome → Hops ctx) := by
  obtain ⟨⟨_, readWindow, -⟩, apart, ⟨size, readSize, power, -⟩⟩ := of_slidingTransform passed
  cases first : ctx.first with
  | none => simp [Returns, slidingTransform, stateless, first]
  | some s =>
    obtain ⟨buffer, length, rfl, shape⟩ := suits.real first
    have window := Params.getD_eq_get (Value.ne_null_of_toFloat readWindow) (.int 1024)
    have overlap := Params.getD_eq_get apart (.int 512)
    cases wide : (ctx.params.get "windowSize").toInt with
    | error fault =>
        simp [Returns, slidingTransform, stateless, first, window, wide, Hops, bind, Except.bind]
    | ok w =>
        cases shared : (ctx.params.get "overlap").toInt with
        | error fault =>
            simp [Returns, slidingTransform, stateless, first, window, overlap, wide, shared, Hops,
              bind, Except.bind]
        | ok o =>
            have call : (slidingTransform ctx record).2 =
                (Spectrum.slide ctx.machine.memory buffer (.int w) (.int (w - o)) (.int size)).map
                  .frames := by
              simp only [slidingTransform, stateless, first, window, overlap, wide, shared,
                Params.toInt_getD readSize, realGrid, bind, Except.bind]
              rfl
            rw [Returns, call, exists_map_eq_ok_iff, exists_slide_iff shape power]
            simp [Hops, wide, shared, readSize, first]

/-! ## Running sums -/

theorem returns_integrator_iff (passed : Validator.integrator ctx.params = .ok [])
    (suits : ctx.Suits allowed (some .real)) :
    Returns integrator ctx (some (.integrator 0)) ↔ Asks ctx True := by
  have limited : ∃ limit, limitRequest ctx.params = .ok limit := by
    unfold limitRequest
    by_cases resets : (ctx.params.get "resetOnOverflow").isGiven = true
    · obtain ⟨x, read, -⟩ := of_integrator passed resets
      rw [if_pos resets, Params.toFloat_getD read]
      exact ⟨some x, rfl⟩
    · rw [if_neg resets]
      exact ⟨none, rfl⟩
  obtain ⟨limit, limited⟩ := limited
  refine returns_iff_of_first (fun none => ?_) fun s first => iff_of_true ?_ trivial
  · simpa only [Returns, integrator, none] using suits.exists_silence_iff
  · obtain ⟨buffer, length, rfl, shape⟩ := suits.real first
    unfold Returns integrator
    simp only [first, limited]
    refine exists_map_eq_ok_iff.mpr ?_
    simp [onRecord, integratorRecord?, integratorStep, realGrid, Grid.line?_of_shape shape,
      Except.bind]

end Block

end Flowgraph
