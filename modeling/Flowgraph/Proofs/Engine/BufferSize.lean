import Flowgraph.Proofs.Block.Combining
import Flowgraph.Proofs.Block.Filtering
import Flowgraph.Proofs.Block.Generating
import Flowgraph.Proofs.Catalog.Builtin
import Flowgraph.Proofs.Engine.Lifting

/-!
# Independence of the buffer size

For many built-in block types the samples that a graph computes do not depend
on the sizes of the buffers in which it computes them.
-/

namespace Flowgraph

open Block

namespace Catalog

def firTypes : List String := ["FIR_FILTER", "LOWPASS_FIR", "HIGHPASS_FIR"]

def displayTypes : List String := ["SPECTRUM_ANALYZER", "OSCILLOSCOPE", "CONSTELLATION"]

def streamTypes : List String :=
  firTypes ++ displayTypes ++
    ["AUDIO_FILE", "BANDPASS_FIR", "HILBERT_TRANSFORMER", "SUMMER", "MULTIPLIER", "INTEGRATOR"]

/-- What runs in a block that turns streams into streams, and the record it starts with. -/
inductive StreamKind : (id : String) → Transfer → Option Record → Prop where
  | display {id : String} (listed : id ∈ displayTypes) : StreamKind id passFirst none
  | audioFile : StreamKind "AUDIO_FILE" audioFile (some (.playback .fresh))
  | fir {id : String} (kind : Option String) (listed : id ∈ firTypes) :
      StreamKind id (fir kind) (some (.filter .fresh))
  | bandpass : StreamKind "BANDPASS_FIR" bandpass (some (.bandpass .fresh .fresh))
  | transformer : StreamKind "HILBERT_TRANSFORMER" transformer (some (.filter .fresh))
  | summer : StreamKind "SUMMER" summer none
  | multiplier : StreamKind "MULTIPLIER" multiplier none
  | integrator : StreamKind "INTEGRATOR" integrator (some (.integrator 0))

theorem streamKind_of_mem {d : Descriptor} (mem : d ∈ Builtin.blocks) (listed : d.id ∈ streamTypes) :
    ∃ initial, d.initialRecord = .ok initial ∧ StreamKind d.id d.process initial := by
  simp only [Builtin.blocks, Builtin.filters, Builtin.generators, Builtin.analyzers,
    Builtin.arithmetic, Builtin.displays, List.mem_append, List.mem_cons, List.not_mem_nil,
    or_false, or_assoc] at mem
  rcases mem with rfl | rfl | rfl | rfl | rfl | rfl | rfl | rfl | rfl | rfl | rfl | rfl | rfl |
    rfl | rfl | rfl | rfl | rfl | rfl | rfl <;>
    simp [streamTypes, firTypes, displayTypes, Builtin.display] at listed
  · exact ⟨_, rfl, .fir none (by simp [firTypes])⟩
  · exact ⟨_, rfl, .bandpass⟩
  · exact ⟨_, rfl, .fir (some "highpass") (by simp [firTypes])⟩
  · exact ⟨_, rfl, .fir (some "lowpass") (by simp [firTypes])⟩
  · exact ⟨_, rfl, .transformer⟩
  · exact ⟨_, rfl, .audioFile⟩
  · exact ⟨_, rfl, .display (by simp [displayTypes, Builtin.display])⟩
  · exact ⟨_, rfl, .integrator⟩
  · exact ⟨_, rfl, .summer⟩
  · exact ⟨_, rfl, .multiplier⟩
  · exact ⟨_, rfl, .display (by simp [displayTypes, Builtin.display])⟩
  · exact ⟨_, rfl, .display (by simp [displayTypes, Builtin.display])⟩

end Catalog

/-! ## Nodes that turn streams into streams -/

namespace Engine

open Flowgraph.Graph

/-- The number stored under a name, if there is one, is no NaN. -/
def NotNaN (params : Params) (name : String) : Prop :=
  ∀ x, (params.get name).toFloat = .ok x → x.isNaN = false

theorem NotNaN.getD {params : Params} {name : String} (h : NotNaN params name) {fallback x : Float}
    (number : fallback.isNaN = false) (read : (params.getD name (.float fallback)).toFloat = .ok x) :
    x.isNaN = false := by
  cases found : params.get? name with
  | none =>
      rw [Params.getD, found] at read
      cases read
      exact number
  | some v =>
      refine h x ?_
      rw [Params.getD, found] at read
      rw [Params.get, found]
      exact read

/--
A node of a built-in type that turns streams into streams, or of an unknown
type.  A running sum has to restart at its limit, and no cutoff may be a NaN.
-/
def SizeBlind (n : Node) : Prop :=
  ∀ d, Catalog.builtin.resolve n.blockType = some d →
    d.id ∈ Catalog.streamTypes ∧
    (d.id = "INTEGRATOR" → ((paramsOf .builtin n).get "resetOnOverflow").isGiven = true) ∧
    (d.id ∈ Catalog.firTypes → NotNaN (paramsOf .builtin n) "cutoff") ∧
    (d.id = "BANDPASS_FIR" → NotNaN (paramsOf .builtin n) "lowCutoff" ∧
      NotNaN (paramsOf .builtin n) "highCutoff")

theorem streamed_of_sizeBlind {n : Node} (blind : SizeBlind n) (rate : Nat) (machine : Machine) :
    ∃ initial, initialOf .builtin n = .ok initial ∧
      Streamed (processOf .builtin n) (paramsOf .builtin n) rate machine initial := by
  cases resolved : Catalog.builtin.resolve n.blockType with
  | none =>
      have process : processOf .builtin n = passFirst := by rw [processOf, resolved]
      have fresh : initialOf .builtin n = .ok none := by rw [initialOf, resolved]
      rw [process]
      exact ⟨none, fresh, streamed_passFirst _ _ _ _⟩
  | some d =>
      obtain ⟨listed, resets, cutoff, edges⟩ := blind d resolved
      obtain ⟨initial, started, kind⟩ :=
        Catalog.streamKind_of_mem (Catalog.mem_blocks_of_resolve resolved) listed
      have process : processOf .builtin n = d.process := by rw [processOf, resolved]
      have fresh : initialOf .builtin n = .ok initial := by
        rw [initialOf, resolved]
        exact started
      refine ⟨initial, fresh, ?_⟩
      rw [process]
      generalize d.id = id at kind resets cutoff edges
      generalize d.process = transfer at kind
      cases kind with
      | display => exact streamed_passFirst _ _ _ _
      | audioFile => exact ⟨_, _, streams_audioFile⟩
      | fir kind listed =>
          exact streamed_fir fun x => (cutoff listed).getD (by rfl)
      | bandpass =>
          exact streamed_bandpass (fun x => (edges rfl).1.getD (by rfl))
            fun x => (edges rfl).2.getD (by rfl)
      | transformer => exact streamed_transformer
      | summer => exact ⟨_, _, streams_summer none⟩
      | multiplier => exact ⟨_, _, streams_multiplier none⟩
      | integrator => exact streamed_integrator (resets rfl)

/-! ## Two sessions -/

variable {nodes : List Node} {edges : List Edge} {c : Compiled} {machine : Machine}

theorem outputs_of_filled {settings : List Settings} {engines : List Engine} {id : String}
    (arity : engines.length = settings.length) (filled : Filled (settings.zip engines) id) :
    ∃ outputs : List Signal, engines.map (·.output? id) = outputs.map some ∧
      List.Forall₂ (fun s output => output.HasLength s.bufferSize) settings outputs ∧
      outputs.flatMap Signal.samples = stream (settings.zip engines) id := by
  induction engines generalizing settings with
  | nil =>
      have none : settings = [] := List.eq_nil_of_length_eq_zero arity.symm
      rw [none]
      exact ⟨[], rfl, .nil, rfl⟩
  | cons e rest ih =>
      cases settings with
      | nil => cases arity
      | cons s settings =>
          obtain ⟨first, others⟩ := List.forall_mem_cons.mp filled
          obtain ⟨outputs, eq, lengths, samples⟩ := ih (Nat.succ.inj arity) others
          cases output : e.output? id with
          | none =>
              rw [value, output] at first
              cases first
          | some signal =>
              have published := value_of_output output
              rw [published] at first
              refine ⟨signal :: outputs, ?_, .cons first lengths, ?_⟩
              · rw [List.map_cons, List.map_cons, output, eq]
              · rw [List.flatMap_cons, samples, ← published]
                rfl

theorem duration_zip {settings : List Settings} {engines : List Engine}
    (arity : engines.length = settings.length) :
    duration (settings.zip engines) = (settings.map (·.bufferSize)).sum := by
  have first : (settings.zip engines).map Prod.fst = settings := List.map_fst_zip arity.ge
  conv_rhs => rw [← first, List.map_map]
  rfl

/--
The samples that a graph of stream blocks computes in a session do not depend
on the buffer sizes: two sessions with one sample rate and as many samples
altogether give every node the same samples, in buffers of the sizes in force.
-/
theorem session_bufferSize (compiled : compile .builtin nodes edges = .ok c)
    (blind : ∀ n ∈ nodes, SizeBlind n) {e e' : Engine} (based : e.catalog = .builtin)
    (based' : e'.catalog = .builtin) {first first' : Settings} {rest rest' : List Settings}
    {rate : Nat} (rates : ∀ s ∈ first :: rest, s.sampleRate = rate)
    (rates' : ∀ s ∈ first' :: rest', s.sampleRate = rate)
    (same : ((first :: rest).map (·.bufferSize)).sum = ((first' :: rest').map (·.bufferSize)).sum)
    {run run' : List Engine} (ran : session machine e c.plan first rest = .ok run)
    (ran' : session machine e' c.plan first' rest' = .ok run') :
    ∀ n ∈ nodes, ∃ outputs outputs' : List Signal,
      run.map (·.output? n.id) = outputs.map some ∧
      run'.map (·.output? n.id) = outputs'.map some ∧
      List.Forall₂ (fun s output => output.HasLength s.bufferSize) (first :: rest) outputs ∧
      List.Forall₂ (fun s output => output.HasLength s.bufferSize) (first' :: rest') outputs' ∧
      outputs.flatMap Signal.samples = outputs'.flatMap Signal.samples := by
  have laws := fun n mem => streamed_of_sizeBlind (blind n mem) rate machine
  obtain ⟨arity, solved⟩ := solvedCycles_of_session compiled based ran
  obtain ⟨arity', solved'⟩ := solvedCycles_of_session compiled based' ran'
  have fixed : ∀ cycle ∈ (first :: rest).zip run, cycle.1.sampleRate = rate :=
    fun cycle mem => rates _ (List.of_mem_zip mem).1
  have fixed' : ∀ cycle ∈ (first' :: rest').zip run', cycle.1.sampleRate = rate :=
    fun cycle mem => rates' _ (List.of_mem_zip mem).1
  have lasting : duration ((first :: rest).zip run) = duration ((first' :: rest').zip run') := by
    rw [duration_zip arity, duration_zip arity', same]
  intro n mem
  obtain ⟨outputs, eq, lengths, samples⟩ :=
    outputs_of_filled arity (filled_of_streamed compiled laws solved fixed n mem)
  obtain ⟨outputs', eq', lengths', samples'⟩ :=
    outputs_of_filled arity' (filled_of_streamed compiled laws solved' fixed' n mem)
  refine ⟨outputs, outputs', eq, eq', lengths, lengths', ?_⟩
  rw [samples, samples']
  exact stream_eq_of_streamed compiled laws solved solved' fixed fixed' lasting n mem

def hum : List Node × List Edge :=
  ([⟨"view", "CONSTELLATION", [], none⟩,
    ⟨"pair", "HILBERT_TRANSFORMER", [("order", .int 3)], none⟩,
    ⟨"total", "INTEGRATOR", [("resetOnOverflow", .bool true), ("maxValue", .int 5)], none⟩,
    ⟨"sum", "SUMMER", [], none⟩,
    ⟨"tape", "AUDIO_FILE",
      [("audioData", .object [("samples", .list [.int 2, .int (-1)])]), ("loop", .bool true)],
      none⟩],
   [⟨"e1", "pair", "view", none, none⟩, ⟨"e2", "total", "pair", none, none⟩,
    ⟨"e3", "sum", "total", none, none⟩, ⟨"e4", "tape", "sum", none, none⟩,
    ⟨"e5", "tape", "sum", none, none⟩])

theorem compile_hum :
    compile .builtin hum.1 hum.2 = .ok ⟨exactPlan hum.2 hum.1.reverse, ⟨5, 5, 5, 1, 1⟩⟩ := by
  have fit : edgeFailures .builtin hum.1 hum.2 = .ok [] := by rfl
  rw [compile, compileWith, fit]
  cbv

theorem sizeBlind_of_id {n : Node} (id : String)
    (known : (Catalog.builtin.resolve n.blockType).map (·.id) = some id)
    (listed : id ∈ Catalog.streamTypes) (noCutoff : id ∉ "BANDPASS_FIR" :: Catalog.firTypes)
    (resets : id = "INTEGRATOR" →
      ((paramsOf .builtin n).get "resetOnOverflow").isGiven = true) : SizeBlind n := by
  intro d resolved
  rw [resolved] at known
  obtain rfl := Option.some.inj known
  obtain ⟨noBand, noFir⟩ := not_or.mp fun h => noCutoff (List.mem_cons.mpr h)
  exact ⟨listed, resets, fun fir => absurd fir noFir, fun band => absurd band noBand⟩

theorem sizeBlind_hum : ∀ n ∈ hum.1, SizeBlind n := by
  unfold hum
  simp only [List.forall_mem_cons, List.not_mem_nil, false_implies, implies_true, and_true]
  refine ⟨?_, ?_, ?_, ?_, ?_⟩
  · exact sizeBlind_of_id "CONSTELLATION" (by rfl) (by decide) (by decide) (by decide)
  · exact sizeBlind_of_id "HILBERT_TRANSFORMER" (by rfl) (by decide) (by decide) (by decide)
  · exact sizeBlind_of_id "INTEGRATOR" (by rfl) (by decide) (by decide) fun _ => by rfl
  · exact sizeBlind_of_id "SUMMER" (by rfl) (by decide) (by decide) (by decide)
  · exact sizeBlind_of_id "AUDIO_FILE" (by rfl) (by decide) (by decide) (by decide)

theorem session_bufferSize_hum :
    ∃ c run run', compile .builtin hum.1 hum.2 = .ok c ∧
      session .bare (.new .builtin) c.plan (sized 2 (by decide))
        [sized 1 (by decide)] = .ok run ∧
      session .bare (.new .builtin) c.plan (sized 3 (by decide)) [] = .ok run' ∧
      ∀ n ∈ hum.1, ∃ outputs outputs' : List Signal,
        run.map (·.output? n.id) = outputs.map some ∧
        run'.map (·.output? n.id) = outputs'.map some ∧
        outputs.length = 2 ∧ outputs'.length = 1 ∧
        outputs.flatMap Signal.samples = outputs'.flatMap Signal.samples := by
  have rates : ∀ s ∈ [sized 2 (by decide), sized 1 (by decide)], s.sampleRate = 8000 := by
    simp [sized]
  have rates' : ∀ s ∈ [sized 3 (by decide)], s.sampleRate = 8000 := by simp [sized]
  have ends : (session .bare (.new .builtin) (exactPlan hum.2 hum.1.reverse)
      (sized 2 (by decide)) [sized 1 (by decide)]).toOption.isSome := by rfl
  have ends' : (session .bare (.new .builtin) (exactPlan hum.2 hum.1.reverse)
      (sized 3 (by decide)) []).toOption.isSome := by rfl
  cases ran : session .bare (.new .builtin) (exactPlan hum.2 hum.1.reverse)
      (sized 2 (by decide)) [sized 1 (by decide)] with
  | error fault =>
      rw [ran] at ends
      cases ends
  | ok run =>
      cases ran' : session .bare (.new .builtin) (exactPlan hum.2 hum.1.reverse)
          (sized 3 (by decide)) [] with
      | error fault =>
          rw [ran'] at ends'
          cases ends'
      | ok run' =>
          refine ⟨_, run, run', compile_hum, ran, ran', fun n mem => ?_⟩
          obtain ⟨outputs, outputs', eq, eq', lengths, lengths', same⟩ :=
            session_bufferSize compile_hum sizeBlind_hum rfl rfl rates rates' rfl ran ran' n mem
          exact ⟨outputs, outputs', eq, eq', lengths.length_eq.symm, lengths'.length_eq.symm, same⟩

end Engine

end Flowgraph
