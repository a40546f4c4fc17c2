import Flowgraph.Catalog.Builtin
import Flowgraph.Proofs.Block.Filtering
import Flowgraph.Proofs.Filter.Design
import Flowgraph.Proofs.Filter.Redesign
import Flowgraph.Proofs.Kernel.Lines

/-!
# Filter blocks whose parameters change

However its input is cut and its parameters change, a filter block gives what
filtering everything since the last change at once would give.
-/

namespace Flowgraph

namespace Block

open Flowgraph.Filter

/-! ## Turns -/

/--
One turn of a filter block on a machine with some memory: the sample rate is an
integer, and a line comes in, or nothing and there is room for silence.
-/
structure Turn (memory : Memory) where
  ctx : Context
  rate : Int
  size : Nat
  buffer : Option (List Float)
  rate_eq : ctx.rate = .int rate
  size_eq : ctx.size = .int size
  first_eq : ctx.first = buffer.map line
  memory_eq : ctx.machine.memory = memory
  room : buffer = none → memory.reserve [size] = .ok ()

variable {memory : Memory}

def recordAfter (process : Transfer) (record : Option Record) (turns : List (Turn memory)) :
    Option Record :=
  turns.foldl (fun record turn => (process turn.ctx record).1) record

def answers (process : Transfer) (record : Option Record) :
    List (Turn memory) → List (Turn memory × Except Fault Signal)
  | [] => []
  | turn :: rest =>
    (turn, (process turn.ctx record).2) :: answers process (process turn.ctx record).1 rest

theorem recordAfter_concat (process : Transfer) (record : Option Record)
    (turns : List (Turn memory)) (turn : Turn memory) :
    recordAfter process record (turns ++ [turn]) =
      (process turn.ctx (recordAfter process record turns)).1 := by
  simp [recordAfter]

theorem answers_concat (process : Transfer) (record : Option Record)
    (turns : List (Turn memory)) (turn : Turn memory) :
    answers process record (turns ++ [turn]) =
      answers process record turns ++
        [(turn, (process turn.ctx (recordAfter process record turns)).2)] := by
  induction turns generalizing record with
  | nil => rfl
  | cons first rest ih =>
      rw [List.cons_append, answers, answers, ih]
      rfl

variable {π : Type}

def fedBy (read : Turn memory → Except Fault π)
    (answered : List (Turn memory × Except Fault Signal)) : List (π × List Float) :=
  answered.filterMap fun now =>
    match now.2, now.1.buffer, read now.1 with
    | .ok _, some buffer, .ok p => some (p, buffer)
    | _, _, _ => none

/-! ## Blocks with one filter -/

/--
What a block with one filter does in a turn: without a buffer it is quiet, with
parameters that cannot be read it fails, and otherwise it sends the buffer
through its filter.
-/
structure OneFilter (process : Transfer) (quiet : Nat → Signal)
    (read : Turn memory → Except Fault π) (key : π → DesignKey)
    (design : π → Except Fault (List Float)) (shown : List Float → List Float → Signal) : Prop where
  silent : ∀ (turn : Turn memory) (record : Option Record), turn.buffer = none →
    process turn.ctx record = (record, .ok (quiet turn.size))
  refused : ∀ (turn : Turn memory) (record : Option Record) (buffer : List Float) (fault : Fault),
    turn.buffer = some buffer → read turn = .error fault →
    process turn.ctx record = (record, .error fault)
  served : ∀ (turn : Turn memory) (s : StreamFilter) (buffer : List Float) (p : π),
    turn.buffer = some buffer → read turn = .ok p →
    process turn.ctx (some (.filter s)) =
      ((some (.filter (streamed (key p) (fun () => design p) (.line buffer) s).1)),
        (streamed (key p) (fun () => design p) (.line buffer) s).2.map (shown buffer))

/--
In every turn, after any others: without a buffer the block is quiet; with
parameters that have no design it fails; both leave its record alone; and
otherwise it shows the last samples that the filter without a past gives for
everything that was answered since the parameters last changed.
-/
def Rebatches [BEq π] (process : Transfer) (quiet : Nat → Signal)
    (read : Turn memory → Except Fault π) (design : π → Except Fault (List Float))
    (shown : List Float → List Float → Signal) : Prop :=
  ∀ (past : List (Turn memory)) (turn : Turn memory),
    let record := recordAfter process (some (.filter .fresh)) past
    let fed := fedBy read (answers process (some (.filter .fresh)) past)
    (turn.buffer = none → process turn.ctx record = (record, .ok (quiet turn.size))) ∧
    ∀ buffer, turn.buffer = some buffer →
      (∀ fault, (read turn).bind design = .error fault →
        process turn.ctx record = (record, .error fault)) ∧
      ∀ p taps, read turn = .ok p → design p = .ok taps →
        ∃ output,
          Kernel.filter (.ofSamples (since p fed ++ buffer)) (.ofSamples taps) none = .ok output ∧
          (process turn.ctx record).2 = .ok (shown buffer (output.rtake buffer.length))

section

variable [BEq π] [PartialEquivBEq π] {process : Transfer} {quiet : Nat → Signal}
  {read : Turn memory → Except Fault π} {key : π → DesignKey}
  {design : π → Except Fault (List Float)} {shown : List Float → List Float → Signal}
  {s : StreamFilter} {fed : List (π × List Float)}

omit [PartialEquivBEq π] in
theorem streamed_error (h : s.Holds key design fed) (keyed : Keyed key design) {p : π}
    {fault : Fault} (refused : design p = .error fault) (buffer : List Float) :
    streamed (key p) (fun () => design p) (.line buffer) s = (s, .error fault) := by
  rw [streamed, h.prepare_error keyed refused]

theorem streamed_ok (h : s.Holds key design fed) (keyed : Keyed key design) {p : π}
    {taps : List Float} (made : design p = .ok taps) (buffer : List Float) :
    ∃ s', streamed (key p) (fun () => design p) (.line buffer) s =
        (s', .ok (apply taps (since p fed) buffer)) ∧
      s'.Holds key design (fed ++ [(p, buffer)]) := by
  obtain ⟨s₀, prepared, output, holds⟩ := h.feed keyed made buffer
  refine ⟨(s₀.feed buffer).1, ?_, holds⟩
  simp only [streamed, prepared, Grid.line?_line, ← output]

/-- A turn of a block with one filter keeps what the filter holds in step with what it was fed. -/
theorem OneFilter.holds_turn (one : OneFilter process quiet read key design shown)
    (keyed : Keyed key design) (h : s.Holds key design fed) (turn : Turn memory) :
    ∃ s', (process turn.ctx (some (.filter s))).1 = some (.filter s') ∧
      s'.Holds key design
        (fed ++ fedBy read [(turn, (process turn.ctx (some (.filter s))).2)]) := by
  cases given : turn.buffer with
  | none =>
      rw [one.silent turn _ given]
      exact ⟨s, rfl, by simpa [fedBy, given] using h⟩
  | some buffer =>
      cases asked : read turn with
      | error fault =>
          rw [one.refused turn _ buffer fault given asked]
          exact ⟨s, rfl, by simpa [fedBy] using h⟩
      | ok p =>
          rw [one.served turn s buffer p given asked]
          cases made : design p with
          | error fault =>
              rw [← made, streamed_error h keyed made]
              exact ⟨s, rfl, by simpa [fedBy, Except.map] using h⟩
          | ok taps =>
              obtain ⟨s', sent, holds⟩ := streamed_ok h keyed made buffer
              rw [← made, sent]
              exact ⟨s', rfl, by simpa [fedBy, Except.map, given, asked] using holds⟩

theorem OneFilter.holds (one : OneFilter process quiet read key design shown)
    (keyed : Keyed key design) (past : List (Turn memory)) :
    ∃ s : StreamFilter,
      recordAfter process (some (.filter .fresh)) past = some (.filter s) ∧
      s.Holds key design (fedBy read (answers process (some (.filter .fresh)) past)) := by
  induction past using List.reverseRecOn with
  | nil => exact ⟨.fresh, rfl, Stream.holds_fresh⟩
  | append_singleton past turn ih =>
      obtain ⟨s, record, holds⟩ := ih
      obtain ⟨s', record', holds'⟩ := one.holds_turn keyed holds turn
      refine ⟨s', ?_, ?_⟩
      · rw [recordAfter_concat, record, record']
      · rw [answers_concat, record, fedBy, List.filterMap_append]
        exact holds'

theorem rtake_apply (taps seen buffer : List Float) :
    (apply taps [] (seen ++ buffer)).rtake buffer.length = apply taps seen buffer := by
  rw [apply_append, List.nil_append, List.rtake]
  simp

theorem OneFilter.rebatches (one : OneFilter process quiet read key design shown)
    (keyed : Keyed key design) : Rebatches process quiet read design shown := by
  intro past turn record fed
  obtain ⟨s, record_eq, holds⟩ := one.holds keyed past
  refine ⟨one.silent turn record, fun buffer given => ⟨?_, ?_⟩⟩
  · intro fault failed
    cases asked : read turn with
    | error found =>
        rw [asked] at failed
        cases failed
        exact one.refused turn record buffer fault given asked
    | ok p =>
        rw [asked] at failed
        have refused : design p = .error fault := failed
        show process turn.ctx (recordAfter _ _ past) = (recordAfter _ _ past, _)
        rw [record_eq, one.served turn s buffer p given asked,
          streamed_error holds keyed refused]
        rfl
  · intro p taps asked made
    obtain ⟨s', sent, -⟩ := streamed_ok holds keyed made buffer
    refine ⟨_, Kernel.filter_ofSamples _ taps, ?_⟩
    show (process turn.ctx (recordAfter _ _ past)).2 = _
    rw [record_eq, one.served turn s buffer p given asked, sent, rtake_apply]
    rfl

end

/-! ## Lowpass, highpass and quadrature filters -/

structure FirDesign where
  kind : String
  order : Int
  cutoff : Float
  rate : Int

namespace FirDesign

instance : BEq FirDesign :=
  ⟨fun p q => p.kind == q.kind && p.order == q.order && p.cutoff == q.cutoff && p.rate == q.rate⟩

theorem beq_iff {p q : FirDesign} : (p == q) = true ↔
    p.kind = q.kind ∧ p.order = q.order ∧ (p.cutoff == q.cutoff) = true ∧ p.rate = q.rate := by
  show (p.kind == q.kind && p.order == q.order && p.cutoff == q.cutoff && p.rate == q.rate) = true ↔ _
  simp [and_assoc]

instance : PartialEquivBEq FirDesign where
  symm same := by
    obtain ⟨kind, order, cutoff, rate⟩ := beq_iff.mp same
    exact beq_iff.mpr ⟨kind.symm, order.symm, BEq.symm cutoff, rate.symm⟩
  trans same same' := by
    obtain ⟨kind, order, cutoff, rate⟩ := beq_iff.mp same
    obtain ⟨kind', order', cutoff', rate'⟩ := beq_iff.mp same'
    exact beq_iff.mpr ⟨kind.trans kind', order.trans order', BEq.trans cutoff cutoff',
      rate.trans rate'⟩

def key (p : FirDesign) : DesignKey :=
  firKey p.kind p.order p.cutoff (.int p.rate)

def taps (memory : Memory) (p : FirDesign) : Except Fault (List Float) :=
  Filter.design memory (.int p.order) (.float p.cutoff) (.int p.rate) (.text p.kind)

theorem keyed (memory : Memory) : Keyed key (taps memory) where
  key_beq p q := by
    rw [Bool.eq_iff_iff, beq_iff]
    simp [key, firKey, Key.text_beq, Key.int_beq, Key.float_beq]
  design_of_beq p q made same designed := by
    obtain ⟨kind, order, cutoff, rate⟩ := beq_iff.mp same
    rw [taps, ← kind, ← order, ← rate]
    exact design_of_beq cutoff designed

end FirDesign

def firDesign (memory : Memory) (fixedKind : Option String) (turn : Turn memory) :
    Except Fault FirDesign := do
  let order ← (turn.ctx.params.getD "order" (.int 64)).toInt
  let cutoff ← (turn.ctx.params.getD "cutoff" (.float 1000)).toFloat
  let kind ← kindOf fixedKind turn.ctx.params
  return ⟨kind, order, cutoff, turn.rate⟩

theorem Turn.silence {turn : Turn memory} (given : turn.buffer = none) :
    turn.ctx.silence = .ok (line (List.replicate turn.size 0)) := by
  rw [Context.silence, turn.size_eq, turn.memory_eq]
  exact silence_eq_ok_iff.mpr ⟨turn.room given, rfl⟩

theorem firRequest_line (fixedKind : Option String) (turn : Turn memory) (buffer : List Float) :
    firRequest fixedKind turn.ctx (line buffer) = (firDesign memory fixedKind turn).map fun p =>
      firStep memory p.kind p.order p.cutoff (.int p.rate) (.line buffer) := by
  unfold firRequest firDesign
  rw [turn.rate_eq, turn.memory_eq]
  cases (turn.ctx.params.getD "order" (.int 64)).toInt with
  | error fault => rfl
  | ok order =>
      cases (turn.ctx.params.getD "cutoff" (.float 1000)).toFloat with
      | error fault => rfl
      | ok cutoff => cases kindOf fixedKind turn.ctx.params <;> rfl

theorem oneFilter_fir (memory : Memory) (fixedKind : Option String) :
    OneFilter (fir fixedKind) (fun size => line (List.replicate size 0)) (firDesign memory fixedKind)
      FirDesign.key (FirDesign.taps memory) (fun _ output => line output) where
  silent turn record given := by
    have first : turn.ctx.first = none := by rw [turn.first_eq, given]; rfl
    simp only [fir, first, Turn.silence given]
  refused turn record buffer fault given asked := by
    have first : turn.ctx.first = some (line buffer) := by rw [turn.first_eq, given]; rfl
    simp only [fir, first, firRequest_line, asked, Except.map]
  served turn s buffer p given asked := by
    have first : turn.ctx.first = some (line buffer) := by rw [turn.first_eq, given]; rfl
    simp only [fir, first, firRequest_line, asked, Except.map]
    rfl

def quadratureOrder (memory : Memory) (turn : Turn memory) : Except Fault Int :=
  (turn.ctx.params.getD "order" (.int 64)).toInt

def quadratureKey (order : Int) : DesignKey :=
  [.text "hilbert", .int order]

def quadratureTaps (memory : Memory) (order : Int) : Except Fault (List Float) :=
  Filter.designQuadrature memory (.int order)

theorem quadratureKey_beq (p q : Int) : (quadratureKey p == quadratureKey q) = (p == q) := by
  rw [Bool.eq_iff_iff]
  simp [quadratureKey, Key.text_beq, Key.int_beq]

theorem keyed_quadrature (memory : Memory) :
    Keyed quadratureKey (quadratureTaps memory) where
  key_beq := quadratureKey_beq
  design_of_beq p q made same designed := by
    cases eq_of_beq same
    exact designed

theorem transformerRequest_line (turn : Turn memory) (buffer : List Float) :
    transformerRequest turn.ctx (line buffer) = (quadratureOrder memory turn).map fun order =>
      transformerStep memory order (.line buffer) := by
  unfold transformerRequest quadratureOrder
  rw [turn.memory_eq]
  cases (turn.ctx.params.getD "order" (.int 64)).toInt <;> rfl

theorem oneFilter_transformer (memory : Memory) :
    OneFilter transformer (fun size => pointLine (List.replicate size ⟨0, 0⟩))
      (quadratureOrder memory) quadratureKey (quadratureTaps memory)
      (fun buffer output => pointLine (Point.zip buffer output)) where
  silent turn record given := by
    have first : turn.ctx.first = none := by rw [turn.first_eq, given]; rfl
    have quiet := origin_eq_ok_iff.mpr ⟨turn.room given, rfl⟩
    simp only [transformer, first, turn.size_eq, turn.memory_eq, quiet]
  refused turn record buffer fault given asked := by
    have first : turn.ctx.first = some (line buffer) := by rw [turn.first_eq, given]; rfl
    simp only [transformer, first, transformerRequest_line, asked, Except.map]
  served turn s buffer order given asked := by
    have first : turn.ctx.first = some (line buffer) := by rw [turn.first_eq, given]; rfl
    have step : transformerStep memory order (.line buffer) s =
        ((streamed (quadratureKey order) (fun _ => quadratureTaps memory order) (.line buffer) s).1,
          (streamed (quadratureKey order) (fun _ => quadratureTaps memory order) (.line buffer)
            s).2.map (Point.zip buffer)) := rfl
    simp only [transformer, first, transformerRequest_line, asked, Except.map, onRecord,
      Option.bind_some, filterRecord?, step]
    cases (streamed (quadratureKey order) (fun _ => quadratureTaps memory order) (.line buffer)
      s).2 <;> rfl

/-! ## The block with two filters -/

def bandDesigns (params : Params) (rate : Int) : Except Fault (FirDesign × FirDesign) := do
  let order ← (params.getD "order" (.int 64)).toInt
  let low ← (params.getD "lowCutoff" (.float 1000)).toFloat
  let high ← (params.getD "highCutoff" (.float 3000)).toFloat
  return (⟨"lowpass", order, high, rate⟩, ⟨"lowpass", order, low, rate⟩)

theorem bandpass_silent {turn : Turn memory} (given : turn.buffer = none) (record : Option Record) :
    bandpass turn.ctx record = (record, .ok (line (List.replicate turn.size 0))) := by
  have first : turn.ctx.first = none := by rw [turn.first_eq, given]; rfl
  simp only [bandpass, first, Turn.silence given]

theorem bandpass_line {turn : Turn memory} {buffer : List Float} (given : turn.buffer = some buffer)
    (upper lower : StreamFilter) :
    bandpass turn.ctx (some (.bandpass upper lower)) =
      match bandDesigns turn.ctx.params turn.rate with
      | .error fault => (some (.bandpass upper lower), .error fault)
      | .ok (above, below) =>
        match streamed above.key (fun () => above.taps memory) (.line buffer) upper with
        | (upper, .error fault) => (some (.bandpass upper lower), .error fault)
        | (upper, .ok passed) =>
          match streamed below.key (fun () => below.taps memory) (.line buffer) lower with
          | (lower, .error fault) => (some (.bandpass upper lower), .error fault)
          | (lower, .ok removed) =>
            (some (.bandpass upper lower), .ok (line (passed.zipWith (· - ·) removed))) := by
  have first : turn.ctx.first = some (line buffer) := by rw [turn.first_eq, given]; rfl
  -- one step of the block is the step of its two filters on their designs
  have step (order : Int) (low high : Float) :
      bandpassStep memory order low high (.int turn.rate) (.line buffer) (upper, lower) =
        match streamed (FirDesign.key ⟨"lowpass", order, high, turn.rate⟩)
          (fun () => FirDesign.taps memory ⟨"lowpass", order, high, turn.rate⟩) (.line buffer)
            upper with
        | (upper, .error fault) => ((upper, lower), .error fault)
        | (upper, .ok passed) =>
          match streamed (FirDesign.key ⟨"lowpass", order, low, turn.rate⟩)
            (fun () => FirDesign.taps memory ⟨"lowpass", order, low, turn.rate⟩) (.line buffer)
              lower with
          | (lower, .error fault) => ((upper, lower), .error fault)
          | (lower, .ok removed) => ((upper, lower), .ok (passed.zipWith (· - ·) removed)) := rfl
  simp only [bandpass, first, bandpassRequest, bandDesigns, turn.rate_eq, turn.memory_eq]
  cases (turn.ctx.params.getD "order" (.int 64)).toInt with
  | error fault => rfl
  | ok order =>
      cases (turn.ctx.params.getD "lowCutoff" (.float 1000)).toFloat with
      | error fault => rfl
      | ok low =>
          cases (turn.ctx.params.getD "highCutoff" (.float 3000)).toFloat with
          | error fault => rfl
          | ok high =>
              simp only [bind, Except.bind, pure, Except.pure, realGrid, line, Value.toKey,
                onRecord, Option.bind_some, bandpassRecord?, step]
              rcases streamed (FirDesign.key ⟨"lowpass", order, high, turn.rate⟩) _ _ upper with
                ⟨upper', fault | passed⟩
              · rfl
              · rcases streamed (FirDesign.key ⟨"lowpass", order, low, turn.rate⟩) _ _ lower with
                  ⟨lower', fault | removed⟩
                · rfl
                · rfl

def heard (turns : List (Turn memory)) : List (List Float) :=
  turns.filterMap (·.buffer)

def replies (answered : List (Turn memory × Except Fault Signal)) : List Signal :=
  answered.filterMap fun now => if now.1.buffer.isSome then now.2.toOption else none

theorem heard_concat (turns : List (Turn memory)) (turn : Turn memory) :
    heard (turns ++ [turn]) = heard turns ++ turn.buffer.toList := by
  cases given : turn.buffer <;> simp [heard, given]

/-- Two filters that have heard all buffers so far, and the lines that were replied to them. -/
structure Banded (params : Params) (rate : Int) (turns : List (Turn memory))
    (upper lower : StreamFilter) (pieces : List (List Float)) : Prop where
  holds : ∀ above below, bandDesigns params rate = .ok (above, below) →
    upper.Holds FirDesign.key (FirDesign.taps memory) ((heard turns).map (above, ·)) ∧
    lower.Holds FirDesign.key (FirDesign.taps memory) ((heard turns).map (below, ·))
  designed : heard turns ≠ [] → ∃ above below passed removed,
    bandDesigns params rate = .ok (above, below) ∧
    above.taps memory = .ok passed ∧ below.taps memory = .ok removed
  pieces_eq : ∀ above below passed removed, bandDesigns params rate = .ok (above, below) →
    above.taps memory = .ok passed → below.taps memory = .ok removed →
    pieces.flatten =
      (apply passed [] (heard turns).flatten).zipWith (· - ·)
        (apply removed [] (heard turns).flatten)

theorem banded_nil (params : Params) (rate : Int) :
    Banded params rate ([] : List (Turn memory)) .fresh .fresh [] where
  holds _ _ _ := ⟨Stream.holds_fresh, Stream.holds_fresh⟩
  designed nothing := absurd rfl nothing
  pieces_eq _ _ _ _ _ _ _ := rfl

def BandNumbers (params : Params) (rate : Int) : Prop :=
  ∀ above below, bandDesigns params rate = .ok (above, below) →
    above.cutoff.isNaN = false ∧ below.cutoff.isNaN = false

theorem FirDesign.beq_self {p : FirDesign} (number : p.cutoff.isNaN = false) :
    (p == p) = true :=
  beq_iff.mpr ⟨rfl, rfl, Number.beq_self number, rfl⟩

variable {params : Params} {rate : Int} {turns : List (Turn memory)} {upper lower : StreamFilter}
  {pieces : List (List Float)}

/-- A bandpass block that answers a buffer has both designs and sends the buffer through both. -/
theorem Banded.of_answer (h : Banded params rate turns upper lower pieces)
    (numbers : BandNumbers params rate) {turn : Turn memory} (constant : turn.ctx.params = params)
    (steady : turn.rate = rate) {buffer : List Float} (given : turn.buffer = some buffer)
    {signal : Signal}
    (answered : (bandpass turn.ctx (some (.bandpass upper lower))).2 = .ok signal) :
    ∃ above below passed removed upper' lower',
      bandDesigns params rate = .ok (above, below) ∧
      above.taps memory = .ok passed ∧ below.taps memory = .ok removed ∧
      (bandpass turn.ctx (some (.bandpass upper lower))).1 = some (.bandpass upper' lower') ∧
      upper'.Holds FirDesign.key (FirDesign.taps memory) ((heard turns ++ [buffer]).map (above, ·)) ∧
      lower'.Holds FirDesign.key (FirDesign.taps memory) ((heard turns ++ [buffer]).map (below, ·)) ∧
      signal = line ((apply passed (heard turns).flatten buffer).zipWith (· - ·)
        (apply removed (heard turns).flatten buffer)) := by
  rw [bandpass_line given, constant, steady] at answered ⊢
  cases asked : bandDesigns params rate with
  | error fault =>
      rw [asked] at answered
      cases answered
  | ok designs =>
      obtain ⟨above, below⟩ := designs
      obtain ⟨upperHolds, lowerHolds⟩ := h.holds above below asked
      obtain ⟨aboveNumber, belowNumber⟩ := numbers above below asked
      cases passedMade : above.taps memory with
      | error fault =>
          have refused := streamed_error upperHolds (FirDesign.keyed memory) passedMade buffer
          simp only [asked, refused] at answered
          cases answered
      | ok passed =>
          obtain ⟨upper', passes, upperHolds'⟩ :=
            streamed_ok upperHolds (FirDesign.keyed memory) passedMade buffer
          cases removedMade : below.taps memory with
          | error fault =>
              have refused := streamed_error lowerHolds (FirDesign.keyed memory) removedMade buffer
              simp only [asked, passes, refused] at answered
              cases answered
          | ok removed =>
              obtain ⟨lower', removes, lowerHolds'⟩ :=
                streamed_ok lowerHolds (FirDesign.keyed memory) removedMade buffer
              rw [since_const (FirDesign.beq_self aboveNumber)] at passes
              rw [since_const (FirDesign.beq_self belowNumber)] at removes
              simp only [asked, passes, removes, Except.ok.injEq] at answered ⊢
              refine ⟨above, below, passed, removed, upper', lower', rfl, passedMade, removedMade,
                rfl, ?_, ?_, answered.symm⟩
              · simpa using upperHolds'
              · simpa using lowerHolds'

/-- A turn of a bandpass block that answers hears its buffer with both filters. -/
theorem Banded.turn (h : Banded params rate turns upper lower pieces)
    (numbers : BandNumbers params rate) {turn : Turn memory} (constant : turn.ctx.params = params)
    (steady : turn.rate = rate) {signal : Signal}
    (answered : (bandpass turn.ctx (some (.bandpass upper lower))).2 = .ok signal) :
    ∃ upper' lower' more,
      (bandpass turn.ctx (some (.bandpass upper lower))).1 = some (.bandpass upper' lower') ∧
      replies [(turn, .ok signal)] = more.map line ∧
      Banded params rate (turns ++ [turn]) upper' lower' (pieces ++ more) := by
  cases given : turn.buffer with
  | none =>
      have same : heard (turns ++ [turn]) = heard turns := by simp [heard_concat, given]
      rw [bandpass_silent given]
      refine ⟨upper, lower, [], rfl, by simp [replies, given], ?_, ?_, ?_⟩
      · simpa only [same] using h.holds
      · simpa only [same] using h.designed
      · simpa only [same, List.append_nil] using h.pieces_eq
  | some buffer =>
      obtain ⟨above, below, passed, removed, upper', lower', asked, passedMade, removedMade, record,
        upperHolds, lowerHolds, rfl⟩ := h.of_answer numbers constant steady given answered
      have longer : heard (turns ++ [turn]) = heard turns ++ [buffer] := by
        simp [heard_concat, given]
      refine ⟨upper', lower', [_], record, by simp [replies, given, Except.toOption]; rfl, ?_, ?_,
        ?_⟩
      · intro above' below' asked'
        cases asked.symm.trans asked'
        rw [longer]
        exact ⟨upperHolds, lowerHolds⟩
      · exact fun _ => ⟨above, below, passed, removed, asked, passedMade, removedMade⟩
      · intro above' below' passed' removed' asked' passedMade' removedMade'
        cases asked.symm.trans asked'
        cases passedMade.symm.trans passedMade'
        cases removedMade.symm.trans removedMade'
        have so_far := h.pieces_eq above below passed removed asked passedMade removedMade
        have even : (apply passed [] (heard turns).flatten).length =
            (apply removed [] (heard turns).flatten).length := by
          rw [length_apply, length_apply]
        rw [longer, List.flatten_append, List.flatten_append, List.flatten_singleton,
          List.flatten_singleton, apply_append, apply_append, List.zipWith_append even, ← so_far,
          List.nil_append]

theorem banded_of_answers (numbers : BandNumbers params rate)
    (constant : ∀ turn ∈ turns, turn.ctx.params = params ∧ turn.rate = rate)
    (answered : ∀ now ∈ answers bandpass (some (.bandpass .fresh .fresh)) turns,
      ∃ signal, now.2 = .ok signal) :
    ∃ upper lower pieces,
      recordAfter bandpass (some (.bandpass .fresh .fresh)) turns =
        some (.bandpass upper lower) ∧
      replies (answers bandpass (some (.bandpass .fresh .fresh)) turns) = pieces.map line ∧
      Banded params rate turns upper lower pieces := by
  induction turns using List.reverseRecOn with
  | nil => exact ⟨.fresh, .fresh, [], rfl, rfl, banded_nil params rate⟩
  | append_singleton turns turn ih =>
      rw [answers_concat] at answered
      obtain ⟨upper, lower, pieces, record, replied, banded⟩ :=
        ih (fun now mem => constant now (List.mem_append_left _ mem))
          (fun now mem => answered now (List.mem_append_left _ mem))
      obtain ⟨params_eq, rate_eq⟩ := constant turn (by simp)
      obtain ⟨signal, answer⟩ :=
        answered (turn, _) (List.mem_append_right _ (List.mem_singleton.mpr rfl))
      rw [record] at answer
      obtain ⟨upper', lower', more, record', replied', banded'⟩ :=
        banded.turn numbers params_eq rate_eq answer
      refine ⟨upper', lower', pieces ++ more, ?_, ?_, banded'⟩
      · rw [recordAfter_concat, record, record']
      · rw [answers_concat, record, replies, List.filterMap_append, List.map_append, ← replied',
          ← replied, answer]
        rfl

/-- The whole filter that the parameters of a bandpass block ask for, on a plain line. -/
def wholeBandpass (memory : Memory) (params : Params) (rate : Int) (samples : List Float) :
    Except Fault (List Float) := do
  let (above, below) ← bandDesigns params rate
  Kernel.bandpass memory (.ofSamples samples) (.int above.order) (.float below.cutoff)
    (.float above.cutoff) (.int rate)

theorem exists_of_bandDesigns {above below : FirDesign}
    (asked : bandDesigns params rate = .ok (above, below)) :
    ∃ order low high,
      above = ⟨"lowpass", order, high, rate⟩ ∧ below = ⟨"lowpass", order, low, rate⟩ := by
  unfold bandDesigns at asked
  obtain ⟨order, -, asked⟩ := of_bind_eq_ok asked
  obtain ⟨low, -, asked⟩ := of_bind_eq_ok asked
  obtain ⟨high, -, asked⟩ := of_bind_eq_ok asked
  cases asked
  exact ⟨order, low, high, rfl, rfl⟩

/-- The whole filter is the difference of what its two designs give, and needs nothing else. -/
theorem wholeBandpass_eq_ok_iff {samples output : List Float} :
    wholeBandpass memory params rate samples = .ok output ↔
      ∃ above below passed removed, bandDesigns params rate = .ok (above, below) ∧
        above.taps memory = .ok passed ∧ below.taps memory = .ok removed ∧
        output = (apply passed [] samples).zipWith (· - ·) (apply removed [] samples) := by
  unfold wholeBandpass Kernel.bandpass
  constructor
  · intro whole
    obtain ⟨⟨above, below⟩, asked, whole⟩ := of_bind_eq_ok whole
    obtain ⟨order, low, high, rfl, rfl⟩ := exists_of_bandDesigns asked
    obtain ⟨passed, passedMade, whole⟩ := of_bind_eq_ok whole
    obtain ⟨plain, read, whole⟩ := of_bind_eq_ok whole
    obtain ⟨removed, removedMade, whole⟩ := of_bind_eq_ok whole
    rw [Operand.samples_ofSamples] at read
    cases read
    exact ⟨_, _, passed, removed, asked, passedMade, removedMade, (Except.ok.inj whole).symm⟩
  · rintro ⟨above, below, passed, removed, asked, passedMade, removedMade, rfl⟩
    obtain ⟨order, low, high, rfl, rfl⟩ := exists_of_bandDesigns asked
    unfold FirDesign.taps at passedMade removedMade
    simp only [asked, passedMade, removedMade, Operand.samples_ofSamples, bind, Except.bind, pure,
      Except.pure]

/-- The replies are what the whole filter gives, which can only fail where nothing was heard. -/
theorem Banded.whole (h : Banded params rate turns upper lower pieces) :
    wholeBandpass memory params rate (heard turns).flatten = .ok pieces.flatten ∨
      heard turns = [] ∧ ∃ fault, wholeBandpass memory params rate [] = .error fault := by
  cases found : wholeBandpass memory params rate (heard turns).flatten with
  | ok output =>
      obtain ⟨above, below, passed, removed, asked, passedMade, removedMade, rfl⟩ :=
        wholeBandpass_eq_ok_iff.mp found
      rw [h.pieces_eq above below passed removed asked passedMade removedMade]
      exact .inl rfl
  | error fault =>
      have nothing : heard turns = [] := by
        by_contra some
        obtain ⟨above, below, passed, removed, asked, passedMade, removedMade⟩ := h.designed some
        have succeeds : wholeBandpass memory params rate (heard turns).flatten = .ok _ :=
          wholeBandpass_eq_ok_iff.mpr
            ⟨above, below, passed, removed, asked, passedMade, removedMade, rfl⟩
        rw [found] at succeeds
        cases succeeds
      rw [nothing] at found
      exact .inr ⟨nothing, fault, found⟩

/-! ## All of them -/

/--
Lowpass, highpass and quadrature filters give at any time what filtering all
that was answered since the parameters last changed would give, whatever the
lengths of the buffers.  A bandpass whose parameters stay fails in a turn, or
its replies are together what the whole filter gives for all that it heard;
before it has heard anything, the whole filter may fail where no turn does.
-/
theorem filters_rebatch (memory : Memory) :
    (∀ fixedKind, Rebatches (fir fixedKind) (fun size => line (List.replicate size 0))
      (firDesign memory fixedKind) (FirDesign.taps memory) fun _ output => line output) ∧
    Rebatches transformer (fun size => pointLine (List.replicate size ⟨0, 0⟩))
      (quadratureOrder memory) (quadratureTaps memory)
      (fun buffer output => pointLine (Point.zip buffer output)) ∧
    ∀ (params : Params) (rate : Int) (turns : List (Turn memory)),
      (∀ turn ∈ turns, turn.ctx.params = params ∧ turn.rate = rate) → BandNumbers params rate →
      let answered := answers bandpass (some (.bandpass .fresh .fresh)) turns
      (∃ now ∈ answered, ∃ fault, now.2 = .error fault) ∨
      ∃ pieces : List (List Float), replies answered = pieces.map line ∧
        (wholeBandpass memory params rate (heard turns).flatten = .ok pieces.flatten ∨
          heard turns = [] ∧ ∃ fault, wholeBandpass memory params rate [] = .error fault) := by
  refine ⟨fun fixedKind => (oneFilter_fir memory fixedKind).rebatches (FirDesign.keyed memory),
    (oneFilter_transformer memory).rebatches (keyed_quadrature memory), ?_⟩
  intro params rate turns constant numbers answered
  by_cases fails : ∃ now ∈ answered, ∃ fault, now.2 = .error fault
  · exact .inl fails
  · have all (now : Turn memory × Except Fault Signal) (mem : now ∈ answered) :
        ∃ signal, now.2 = .ok signal := by
      cases answer : now.2 with
      | error fault => exact absurd ⟨now, mem, fault, answer⟩ fails
      | ok signal => exact ⟨signal, rfl⟩
    obtain ⟨upper, lower, pieces, -, replied, banded⟩ := banded_of_answers numbers constant all
    exact .inr ⟨pieces, replied, banded.whole⟩

/-- The built-in filter blocks are these, and each starts with filters without a past. -/
example :
    ["FIR_FILTER", "LOWPASS_FIR", "HIGHPASS_FIR", "HILBERT_TRANSFORMER", "BANDPASS_FIR"].map
        (fun id => (Catalog.builtin.resolve id).map fun d => (d.process, d.initialRecord)) =
      [some (fir none, .ok (some (.filter .fresh))),
        some (fir (some "lowpass"), .ok (some (.filter .fresh))),
        some (fir (some "highpass"), .ok (some (.filter .fresh))),
        some (transformer, .ok (some (.filter .fresh))),
        some (bandpass, .ok (some (.bandpass .fresh .fresh)))] := by
  rfl

def orderedTurn (order : Int) (buffer : List Float) : Turn Machine.bare.memory where
  ctx :=
    { inputs := [some (line buffer)]
      params := [("order", .int order)]
      rate := .int 48000
      size := .int 2
      machine := .bare }
  rate := 48000
  size := 2
  buffer := some buffer
  rate_eq := rfl
  size_eq := rfl
  first_eq := rfl
  memory_eq := rfl
  room := nofun

/-- An order of none is refused, and a new order is not given what came before it. -/
theorem filters_rebatch_ordered :
    let past := [orderedTurn 3 [1, 2], orderedTurn 0 [3, 4], orderedTurn 5 [5], orderedTurn 5 []]
    let record := recordAfter transformer (some (.filter .fresh)) past
    transformer (orderedTurn 0 [6]).ctx record =
      (record, .error (Value.named .transformerOrder (.int 0))) ∧
    (∃ taps output, quadratureTaps Machine.bare.memory 5 = .ok taps ∧
      Kernel.filter (.ofSamples [5, 6, 7]) (.ofSamples taps) none = .ok output ∧
      (transformer (orderedTurn 5 [6, 7]).ctx record).2 =
        .ok (pointLine (Point.zip [6, 7] (output.rtake 2)))) ∧
    (∃ taps output, quadratureTaps Machine.bare.memory 3 = .ok taps ∧
      Kernel.filter (.ofSamples [6, 7]) (.ofSamples taps) none = .ok output ∧
      (transformer (orderedTurn 3 [6, 7]).ctx record).2 =
        .ok (pointLine (Point.zip [6, 7] (output.rtake 2)))) ∧
    ((∃ now ∈ answers bandpass (some (.bandpass .fresh .fresh)) [orderedTurn 3 [1, 2]],
        ∃ fault, now.2 = .error fault) ∨
      ∃ pieces : List (List Float),
        replies (answers bandpass (some (.bandpass .fresh .fresh)) [orderedTurn 3 [1, 2]]) =
          pieces.map line ∧
        wholeBandpass Machine.bare.memory [("order", .int 3)] 48000 [1, 2] = .ok pieces.flatten) := by
  intro past record
  obtain ⟨-, rebatches, band⟩ := filters_rebatch Machine.bare.memory
  refine ⟨?_, ?_, ?_, ?_⟩
  · exact ((rebatches past (orderedTurn 0 [6])).2 [6] rfl).1 _ rfl
  · obtain ⟨output, whole, shown⟩ :=
      ((rebatches past (orderedTurn 5 [6, 7])).2 [6, 7] rfl).2 5 _ rfl rfl
    exact ⟨_, output, rfl, whole, shown⟩
  · obtain ⟨output, whole, shown⟩ :=
      ((rebatches past (orderedTurn 3 [6, 7])).2 [6, 7] rfl).2 3 _ rfl rfl
    exact ⟨_, output, rfl, whole, shown⟩
  · have numbers : BandNumbers [("order", .int 3)] 48000 := by
      intro above below asked
      cases asked
      exact ⟨by rfl, by rfl⟩
    rcases band [("order", .int 3)] 48000 [orderedTurn 3 [1, 2]] (by simp [orderedTurn]) numbers
      with fails | ⟨pieces, replied, whole | ⟨nothing, -⟩⟩
    · exact .inl fails
    · exact .inr ⟨pieces, replied, whole⟩
    · cases nothing

end Block

end Flowgraph
