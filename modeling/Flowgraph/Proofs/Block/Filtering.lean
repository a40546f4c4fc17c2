import Flowgraph.Block.Filtering
import Flowgraph.Proofs.Block.Streams
import Flowgraph.Proofs.Filter.Design
import Flowgraph.Proofs.Filter.Streaming

/-!
# Streams through filters

A filter keeps its past as long as its key stays equal to itself, which only a
NaN in the key prevents.  Its output stream is then its input stream filtered
from the start.
-/

namespace Flowgraph

namespace Block

theorem firKey_self (kind : String) (order : Int) {cutoff : Float} (number : cutoff.isNaN = false)
    (rate : Int) :
    (firKey kind order cutoff (.int rate) == firKey kind order cutoff (.int rate)) = true := by
  simp [firKey, Key.text_beq, Key.int_beq, Key.float_beq, Number.beq_self number]

/-! ## One filter -/

/-- A filter that is fresh, or has been designed for a key and fed some samples. -/
def Filtering (key : Filter.DesignKey) (design : Unit → Except Fault (List Float))
    (s : StreamFilter) (seen : List Float) : Prop :=
  s = .fresh ∧ seen = [] ∨ ∃ taps, design () = .ok taps ∧ s.Follows key taps seen

def filtered (design : Unit → Except Fault (List Float)) (seen : List Float) : List Float :=
  match design () with
  | .ok taps => Filter.apply taps [] seen
  | .error _ => []

theorem filtered_nil (design : Unit → Except Fault (List Float)) : filtered design [] = [] := by
  unfold filtered
  cases design () <;> rfl

/-- One buffer through a filter continues its output stream. -/
theorem streamed_spec {key : Filter.DesignKey} {design : Unit → Except Fault (List Float)}
    {buffer : Grid Float} {s s' : StreamFilter} {seen output : List Float} {n : Nat}
    (reflexive : (key == key) = true) (shape : buffer.shape = [n])
    (past : Filtering key design s seen)
    (taken : streamed key design buffer s = (s', .ok output)) :
    output.length = n ∧ Filtering key design s' (seen ++ buffer.cells) ∧
      filtered design (seen ++ buffer.cells) = filtered design seen ++ output := by
  have prepared : ∃ taps, design () = .ok taps ∧
      ∃ s₀, s.prepare key design = (s₀, .ok ()) ∧ s₀.Follows key taps seen := by
    rcases past with ⟨rfl, rfl⟩ | ⟨taps, designed, follows⟩
    · have other : (Filter.Stream.fresh : StreamFilter).designedFor key = false := rfl
      cases designed : design () with
      | error fault =>
          simp [streamed, Filter.Stream.prepare, other, designed] at taken
      | ok taps =>
          refine ⟨taps, rfl, _, ?_, Filter.Stream.follows_configure reflexive other taps⟩
          simp [Filter.Stream.prepare, other, designed]
    · refine ⟨taps, designed, s, ?_, follows⟩
      simp [Filter.Stream.prepare, follows.designed]
  obtain ⟨taps, designed, s₀, ready, follows⟩ := prepared
  obtain ⟨follows', eq⟩ := follows.feed buffer.cells
  simp only [streamed, ready, Grid.line?_of_shape shape, Prod.mk.injEq, Except.ok.injEq] at taken
  obtain ⟨rfl, rfl⟩ := taken
  refine ⟨?_, .inr ⟨taps, designed, follows'⟩, ?_⟩
  · rw [eq, Filter.length_apply, Grid.length_cells shape]
  · simp only [filtered, designed]
    rw [Filter.apply_append, List.nil_append, eq]

/-! ## Blocks with one filter -/

variable {params : Params} {rate : Nat} {machine : Machine} {size : Nat} {after : Option Record}
  {out : Signal}

abbrev Wanted := Filter.DesignKey × (Unit → Except Fault (List Float))

def designWanted (memory : Memory) (kind name : String) (fallback : Float) (params : Params)
    (rate : Nat) : Except Fault Wanted := do
  let order ← (params.getD "order" (.int 64)).toInt
  let cutoff ← (params.getD name (.float fallback)).toFloat
  return (firKey kind order cutoff (.int rate),
    fun () => Filter.design memory (.int order) (.float cutoff) (.ofKey (.int rate)) (.text kind))

theorem designWanted_eq (memory : Memory) (kind : String) {name : String} {fallback : Float}
    {order : Int} {cutoff : Float} (ordered : (params.getD "order" (.int 64)).toInt = .ok order)
    (cut : (params.getD name (.float fallback)).toFloat = .ok cutoff) :
    designWanted memory kind name fallback params rate =
      .ok (firKey kind order cutoff (.int rate),
        fun () =>
          Filter.design memory (.int order) (.float cutoff) (.ofKey (.int rate)) (.text kind)) := by
  rw [designWanted, ordered, cut]
  rfl

def firWanted (memory : Memory) (fixedKind : Option String) (params : Params) (rate : Nat) :
    Except Fault Wanted := do
  let kind ← kindOf fixedKind params
  designWanted memory kind "cutoff" 1000 params rate

def transformerWanted (memory : Memory) (params : Params) : Except Fault Wanted := do
  let order ← (params.getD "order" (.int 64)).toInt
  return ([.text "hilbert", .int order], fun () => Filter.designQuadrature memory (.int order))

def Filters (wanted : Except Fault Wanted) (record : Option Record) (seen : List Sample) : Prop :=
  ∃ s : StreamFilter, record = some (.filter s) ∧
    ∀ key design, wanted = .ok (key, design) → Filtering key design s (reals seen)

theorem filters_fresh (wanted : Except Fault Wanted) :
    Filters wanted (some (.filter .fresh)) [] :=
  ⟨.fresh, rfl, fun _ _ _ => .inl ⟨rfl, rfl⟩⟩

def outputOf (wanted : Except Fault Wanted) (seen : List Sample) : List Float :=
  match wanted with
  | .ok (_, design) => filtered design (reals seen)
  | .error _ => []

theorem outputOf_nil (wanted : Except Fault Wanted) : outputOf wanted [] = [] := by
  rcases wanted with fault | ⟨key, design⟩
  · rfl
  · exact filtered_nil design

/-- One buffer through a block with one filter. -/
theorem Filters.next {wanted : Except Fault Wanted} {s s' : StreamFilter} {seen : List Sample}
    {key : Filter.DesignKey} {design : Unit → Except Fault (List Float)} {input : Signal}
    {buffer : Grid Float} {output : List Float} (holds : Filters wanted (some (.filter s)) seen)
    (length : input.HasLength size) (read : realGrid input = .ok buffer)
    (asked : wanted = .ok (key, design)) (reflexive : (key == key) = true)
    (taken : streamed key design buffer s = (s', .ok output)) :
    output.length = size ∧ Filters wanted (some (.filter s')) (seen ++ input.samples) ∧
      outputOf wanted (seen ++ input.samples) = outputOf wanted seen ++ output := by
  obtain ⟨shape, cells⟩ := realGrid_spec length read
  obtain ⟨s₀, same, filtering⟩ := holds
  cases same
  obtain ⟨length', filtering', continues⟩ :=
    streamed_spec reflexive shape (filtering key design asked) taken
  refine ⟨length', ⟨s', rfl, ?_⟩, ?_⟩
  · intro key' design' asked'
    cases asked.symm.trans asked'
    rw [reals_append, cells]
    exact filtering'
  · simp only [outputOf, asked, reals_append, cells]
    exact continues

theorem firRequest_spec {fixedKind : Option String} {input : Signal} {inputs : List Signal}
    {step : StreamFilter → StreamFilter × Except Fault (List Float)}
    (requested : firRequest fixedKind (given params rate machine inputs size) input = .ok step) :
    ∃ kind order cutoff buffer, kindOf fixedKind params = .ok kind ∧
      (params.getD "order" (.int 64)).toInt = .ok order ∧
      (params.getD "cutoff" (.float 1000)).toFloat = .ok cutoff ∧
      realGrid input = .ok buffer ∧
      step = firStep machine.memory kind order cutoff (.int rate) buffer := by
  unfold firRequest at requested
  obtain ⟨order, ordered, requested⟩ := of_bind_eq_ok requested
  obtain ⟨cutoff, cut, requested⟩ := of_bind_eq_ok requested
  obtain ⟨kind, known, requested⟩ := of_bind_eq_ok requested
  obtain ⟨buffer, read, requested⟩ := of_bind_eq_ok requested
  cases requested
  exact ⟨kind, order, cutoff, buffer, known, ordered, cut, read, rfl⟩

theorem feed_fir {fixedKind : Option String} {input : Signal} {rest : List Signal}
    {s : StreamFilter}
    (taken : feed (fir fixedKind) params rate machine (input :: rest) size (some (.filter s)) =
      (after, .ok out)) :
    ∃ kind order cutoff key design buffer s' output,
      (params.getD "cutoff" (.float 1000)).toFloat = .ok cutoff ∧
      key = firKey kind order cutoff (.int rate) ∧
      firWanted machine.memory fixedKind params rate = .ok (key, design) ∧
      realGrid input = .ok buffer ∧ streamed key design buffer s = (s', .ok output) ∧
      after = some (.filter s') ∧ out = line output := by
  have first : (given params rate machine (input :: rest) size).first = some input := rfl
  simp only [feed, fir, first] at taken
  cases requested : firRequest fixedKind (given params rate machine (input :: rest) size) input with
  | error fault =>
      rw [requested] at taken
      cases taken
  | ok step =>
      obtain ⟨kind, order, cutoff, buffer, known, ordered, cut, read, rfl⟩ :=
        firRequest_spec requested
      rw [requested] at taken
      simp only [onRecord, Option.bind_some, filterRecord?] at taken
      rcases stepped : firStep machine.memory kind order cutoff (.int rate) buffer s with
        ⟨s', fault | output⟩
      · rw [stepped] at taken
        cases taken
      · rw [stepped] at taken
        cases taken
        refine ⟨kind, order, cutoff, _, _, buffer, s', output, cut, rfl, ?_, read, stepped, rfl,
          rfl⟩
        rw [firWanted, known]
        exact designWanted_eq _ kind ordered cut

theorem streamed_fir {fixedKind : Option String}
    (number : ∀ x, (params.getD "cutoff" (.float 1000)).toFloat = .ok x → x.isNaN = false) :
    Streamed (fir fixedKind) params rate machine (some (.filter .fresh)) := by
  refine ⟨_, _, streams_ofFirst (.real 0)
    (fun seen => (outputOf (firWanted machine.memory fixedKind params rate) seen).map .real)
    (Filters (firWanted machine.memory fixedKind params rate)) (filters_fresh _) ?_ ?_ ?_⟩
  · rw [outputOf_nil, List.map_nil]
  · intro size record after out taken
    obtain ⟨-, quiet⟩ := Prod.mk.inj taken
    exact silence_spec quiet
  · intro record seen input rest size after out holds length taken
    obtain ⟨s, rfl, -⟩ := id holds
    obtain ⟨kind, order, cutoff, key, design, buffer, s', output, cut, rfl, asked, read, stepped,
      rfl, rfl⟩ := feed_fir taken
    have reflexive := firKey_self kind order (number cutoff cut) rate
    obtain ⟨length', holds', continues⟩ := holds.next length read asked reflexive stepped
    refine ⟨length' ▸ hasLength_line output, holds', ?_⟩
    rw [continues, List.map_append]
    rfl

theorem feed_transformer {input : Signal} {rest : List Signal} {s : StreamFilter}
    (taken : feed transformer params rate machine (input :: rest) size (some (.filter s)) =
      (after, .ok out)) :
    ∃ order design buffer s' output,
      transformerWanted machine.memory params = .ok ([.text "hilbert", .int order], design) ∧
      realGrid input = .ok buffer ∧
      streamed [.text "hilbert", .int order] design buffer s = (s', .ok output) ∧
      after = some (.filter s') ∧ out = pointLine (Point.zip buffer.cells output) := by
  have first : (given params rate machine (input :: rest) size).first = some input := rfl
  simp only [feed, transformer, first] at taken
  cases requested : transformerRequest (given params rate machine (input :: rest) size) input with
  | error fault =>
      rw [requested] at taken
      cases taken
  | ok step =>
      rw [requested] at taken
      unfold transformerRequest at requested
      obtain ⟨buffer, read, requested⟩ := of_bind_eq_ok requested
      obtain ⟨order, ordered, requested⟩ := of_bind_eq_ok requested
      cases requested
      refine ⟨order, fun () => Filter.designQuadrature machine.memory (.int order), buffer, ?_⟩
      simp only [onRecord, Option.bind_some, filterRecord?, transformerStep, given] at taken
      rcases stepped : streamed [.text "hilbert", .int order]
        (fun () => Filter.designQuadrature machine.memory (.int order)) buffer s with
          ⟨s', fault | output⟩
      · rw [stepped] at taken
        cases taken
      · rw [stepped] at taken
        cases taken
        have asked : (params.getD "order" (.int 64)).toInt = .ok order := ordered
        refine ⟨s', output, ?_, read, rfl, rfl, rfl⟩
        rw [transformerWanted, asked]
        rfl

def quadratureOf (memory : Memory) (params : Params) (seen : List Sample) : List Sample :=
  (Point.zip (reals seen) (outputOf (transformerWanted memory params) seen)).map .point

theorem streamed_transformer :
    Streamed transformer params rate machine (some (.filter .fresh)) := by
  refine ⟨_, _, streams_ofFirst (.point ⟨0, 0⟩) (quadratureOf machine.memory params)
    (fun record seen => Filters (transformerWanted machine.memory params) record seen ∧
      (outputOf (transformerWanted machine.memory params) seen).length = (reals seen).length)
    ⟨filters_fresh _, by rw [outputOf_nil]; rfl⟩ rfl ?_ ?_⟩
  · intro size record after out taken
    obtain ⟨-, quiet⟩ := Prod.mk.inj taken
    exact origin_spec quiet
  · rintro record seen input rest size after out ⟨holds, even⟩ length taken
    obtain ⟨s, rfl, -⟩ := id holds
    obtain ⟨order, design, buffer, s', output, asked, read, stepped, rfl, rfl⟩ :=
      feed_transformer taken
    have reflexive : ([.text "hilbert", .int order] : Filter.DesignKey) ==
        [.text "hilbert", .int order] := by
      simp [Key.text_beq, Key.int_beq]
    obtain ⟨length', holds', continues⟩ := holds.next length read asked reflexive stepped
    obtain ⟨shape, cells⟩ := realGrid_spec length read
    have cut : buffer.cells.length = output.length := by
      rw [length', Grid.length_cells shape]
    refine ⟨?_, ⟨holds', ?_⟩, ?_⟩
    · show [(Point.zip buffer.cells output).length] = [size]
      rw [Point.zip, List.length_zipWith, cut, Nat.min_self, length']
    · rw [continues, reals_append, cells, List.length_append, List.length_append, even, cut]
    · unfold quadratureOf Point.zip
      rw [continues, reals_append, cells, List.zipWith_append even.symm, List.map_append]
      rfl

/-! ## The block with two filters -/

theorem feed_bandpass {input : Signal} {rest : List Signal} {upper lower : StreamFilter}
    (taken : feed bandpass params rate machine (input :: rest) size (some (.bandpass upper lower)) =
      (after, .ok out)) :
    ∃ order low high buffer upper' lower' above below,
      (params.getD "order" (.int 64)).toInt = .ok order ∧
      (params.getD "lowCutoff" (.float 1000)).toFloat = .ok low ∧
      (params.getD "highCutoff" (.float 3000)).toFloat = .ok high ∧
      realGrid input = .ok buffer ∧
      firStep machine.memory "lowpass" order high (.int rate) buffer upper = (upper', .ok above) ∧
      firStep machine.memory "lowpass" order low (.int rate) buffer lower = (lower', .ok below) ∧
      after = some (.bandpass upper' lower') ∧ out = line (above.zipWith (· - ·) below) := by
  have first : (given params rate machine (input :: rest) size).first = some input := rfl
  simp only [feed, bandpass, first] at taken
  cases requested : bandpassRequest (given params rate machine (input :: rest) size) input with
  | error fault =>
      rw [requested] at taken
      cases taken
  | ok step =>
      rw [requested] at taken
      unfold bandpassRequest at requested
      obtain ⟨buffer, read, requested⟩ := of_bind_eq_ok requested
      obtain ⟨order, ordered, requested⟩ := of_bind_eq_ok requested
      obtain ⟨low, lowRead, requested⟩ := of_bind_eq_ok requested
      obtain ⟨high, highRead, requested⟩ := of_bind_eq_ok requested
      cases requested
      simp only [onRecord, Option.bind_some, bandpassRecord?, bandpassStep, given] at taken
      rcases upperStep : firStep machine.memory "lowpass" order high (.int rate) buffer upper with
        ⟨upper', fault | above⟩
      · rw [upperStep] at taken
        cases taken
      · rcases lowerStep : firStep machine.memory "lowpass" order low (.int rate) buffer lower with
          ⟨lower', fault | below⟩
        · rw [upperStep] at taken
          simp only [lowerStep] at taken
          cases taken
        · rw [upperStep] at taken
          simp only [lowerStep] at taken
          cases taken
          exact ⟨order, low, high, buffer, upper', lower', above, below, ordered, lowRead,
            highRead, read, upperStep, lowerStep, rfl, rfl⟩

/-- The design of the filter whose output is taken, and of the one whose output is taken away. -/
def upperWanted (memory : Memory) (params : Params) (rate : Nat) : Except Fault Wanted :=
  designWanted memory "lowpass" "highCutoff" 3000 params rate

@[inherit_doc upperWanted]
def lowerWanted (memory : Memory) (params : Params) (rate : Nat) : Except Fault Wanted :=
  designWanted memory "lowpass" "lowCutoff" 1000 params rate

def bandOf (memory : Memory) (params : Params) (rate : Nat) (seen : List Sample) : List Sample :=
  ((outputOf (upperWanted memory params rate) seen).zipWith (· - ·)
    (outputOf (lowerWanted memory params rate) seen)).map .real

def FiltersBand (memory : Memory) (params : Params) (rate : Nat) (record : Option Record)
    (seen : List Sample) : Prop :=
  ∃ upper lower : StreamFilter, record = some (.bandpass upper lower) ∧
    Filters (upperWanted memory params rate) (some (.filter upper)) seen ∧
    Filters (lowerWanted memory params rate) (some (.filter lower)) seen ∧
    (outputOf (upperWanted memory params rate) seen).length =
      (outputOf (lowerWanted memory params rate) seen).length

theorem streamed_bandpass
    (lowNumber : ∀ x, (params.getD "lowCutoff" (.float 1000)).toFloat = .ok x → x.isNaN = false)
    (highNumber : ∀ x, (params.getD "highCutoff" (.float 3000)).toFloat = .ok x →
      x.isNaN = false) :
    Streamed bandpass params rate machine (some (.bandpass .fresh .fresh)) := by
  refine ⟨_, _, streams_ofFirst (.real 0) (bandOf machine.memory params rate)
    (FiltersBand machine.memory params rate)
    ⟨.fresh, .fresh, rfl, filters_fresh _, filters_fresh _, ?_⟩ ?_ ?_ ?_⟩
  · rw [outputOf_nil, outputOf_nil]
  · rw [bandOf, outputOf_nil, List.zipWith_nil_left, List.map_nil]
  · intro size record after out taken
    obtain ⟨-, quiet⟩ := Prod.mk.inj taken
    exact silence_spec quiet
  · rintro record seen input rest size after out ⟨upper, lower, rfl, above, below, even⟩ length
      taken
    obtain ⟨order, low, high, buffer, upper', lower', highOut, lowOut, ordered, lowRead, highRead,
      read, upperStep, lowerStep, rfl, rfl⟩ := feed_bandpass taken
    obtain ⟨length₁, above', continues₁⟩ := above.next length read
      (designWanted_eq machine.memory "lowpass" ordered highRead)
      (firKey_self "lowpass" order (highNumber high highRead) rate) upperStep
    obtain ⟨length₂, below', continues₂⟩ := below.next length read
      (designWanted_eq machine.memory "lowpass" ordered lowRead)
      (firKey_self "lowpass" order (lowNumber low lowRead) rate) lowerStep
    refine ⟨?_, ⟨upper', lower', rfl, above', below', ?_⟩, ?_⟩
    · show [(highOut.zipWith (· - ·) lowOut).length] = [size]
      rw [List.length_zipWith, length₁, length₂, Nat.min_self]
    · rw [continues₁, continues₂, List.length_append, List.length_append, even, length₁, length₂]
    · rw [bandOf, continues₁, continues₂, List.zipWith_append even, List.map_append]
      rfl

end Block

end Flowgraph
