import Flowgraph.Block.Combining
import Flowgraph.Proofs.Block.Pieces
import Flowgraph.Proofs.Block.Streams

/-!
# Streams through arithmetic blocks

Sums and products are taken sample by sample, and a running sum with a limit
goes on from its last value, so none of them depends on the cuts.
-/

namespace Flowgraph

namespace Block

/-- Input streams of real samples up to some time. -/
def EvenReal (_ : Option Record) (past : List (List Sample)) (count : Nat) : Prop :=
  ∀ xs ∈ past, (reals xs).length = count

theorem evenReal_start (record : Option Record) (arity : Nat) :
    EvenReal record (List.replicate arity []) 0 := by
  intro xs mem
  rw [List.eq_of_mem_replicate mem]
  rfl

theorem reals_continued (past : List (List Sample)) (inputs : List Signal) :
    (continued past inputs).map reals =
      (past.map reals).zipWith (· ++ ·) (inputs.map fun s => reals s.samples) := by
  unfold continued
  rw [List.map_zipWith, List.zipWith_map_left, List.zipWith_map_right, List.zipWith_map_right]
  simp only [reals_append]

theorem evenReal_continued {record after : Option Record} {past : List (List Sample)}
    {count size : Nat} {inputs : List Signal} (even : EvenReal record past count)
    (lengths : ∀ s ∈ inputs, (reals s.samples).length = size) :
    EvenReal after (continued past inputs) (count + size) := by
  induction past generalizing inputs with
  | nil => simp [EvenReal, continued]
  | cons xs rest ih =>
      cases inputs with
      | nil => simp [EvenReal, continued]
      | cons s more =>
          obtain ⟨first, others⟩ := List.forall_mem_cons.mp even
          obtain ⟨first', others'⟩ := List.forall_mem_cons.mp lengths
          refine List.forall_mem_cons.mpr ⟨?_, ih others others'⟩
          rw [reals_append, List.length_append, first, first']

variable {params : Params} {rate : Nat} {machine : Machine} {inputs : List Signal} {size : Nat}
  {record after : Option Record} {out : Signal}

theorem realInputs_given :
    (given params rate machine inputs size).realInputs = inputs.mapM realGrid := by
  simp [Context.realInputs, given, List.filterMap_map]

theorem feed_summer (lengths : ∀ s ∈ inputs, s.HasLength size)
    (taken : feed summer params rate machine inputs size record = (after, .ok out)) :
    (∀ s ∈ inputs, (reals s.samples).length = size) ∧ out.HasLength size ∧
      out.samples = (Mixing.sum size (inputs.map fun s => reals s.samples)).map .real := by
  simp only [feed, summer, stateless, realInputs_given, Prod.mk.injEq] at taken
  obtain ⟨-, summed⟩ := taken
  obtain ⟨gs, read, summed⟩ := of_bind_eq_ok summed
  obtain ⟨arity, lines, lengths'⟩ := realLines_spec lengths read
  refine ⟨lengths', ?_⟩
  cases inputs with
  | nil =>
      have none : gs = [] := List.eq_nil_of_length_eq_zero arity
      subst none
      obtain ⟨length, samples⟩ := silence_spec summed
      exact ⟨length, by simp [samples, Mixing.sum]⟩
  | cons s rest =>
      have some : gs.isEmpty = false := by
        cases gs with
        | nil => cases arity
        | cons g more => rfl
      have first : (reals s.samples).length = size := lengths' s List.mem_cons_self
      rw [some, lines] at summed
      cases summed
      simp only [List.map_cons, List.head?_cons, Option.map_some, first, Option.getD_some]
      exact ⟨by simpa using hasLength_line (Mixing.sum size _), rfl⟩

def sumOf (past : List (List Sample)) (count : Nat) : List Sample :=
  (Mixing.sum count (past.map reals)).map .real

theorem streams_summer (initial : Option Record) :
    Streams (feed summer params rate machine) initial sumOf EvenReal where
  start arity := evenReal_start initial arity
  nothing arity := by
    rw [sumOf, ← List.length_eq_zero_iff, List.length_map, Mixing.length_sum]
  next := by
    intro record past count inputs size after out even arity lengths taken
    obtain ⟨lengths', length, samples⟩ := feed_summer lengths taken
    refine ⟨length, evenReal_continued even lengths', ?_⟩
    rw [sumOf, reals_continued, Mixing.sum_append size (by simpa using arity)
      (List.forall_mem_map.mpr even), List.map_append, samples, sumOf]

theorem feed_multiplier (lengths : ∀ s ∈ inputs, s.HasLength size)
    (taken : feed multiplier params rate machine inputs size record = (after, .ok out)) :
    (∀ s ∈ inputs, (reals s.samples).length = size) ∧ out.HasLength size ∧
      out.samples = if inputs.length < 2 then List.replicate size (.real 0)
        else (Mixing.product (inputs.map fun s => reals s.samples)).map .real := by
  simp only [feed, multiplier, stateless, realInputs_given, Prod.mk.injEq] at taken
  obtain ⟨-, multiplied⟩ := taken
  obtain ⟨gs, read, multiplied⟩ := of_bind_eq_ok multiplied
  obtain ⟨arity, lines, lengths'⟩ := realLines_spec lengths read
  refine ⟨lengths', ?_⟩
  rw [arity] at multiplied
  by_cases few : inputs.length < 2
  · rw [if_pos few] at multiplied ⊢
    exact silence_spec multiplied
  · rw [if_neg few, lines] at multiplied
    cases multiplied
    rw [if_neg few]
    have some : (inputs.map fun s => reals s.samples) ≠ [] := by
      intro none
      rw [List.map_eq_nil_iff] at none
      simp [none] at few
    have length := Mixing.length_product some (List.forall_mem_map.mpr lengths')
    have whole := hasLength_line (Mixing.product (inputs.map fun s => reals s.samples))
    rw [length] at whole
    exact ⟨whole, rfl⟩

def productOf (past : List (List Sample)) (count : Nat) : List Sample :=
  if past.length < 2 then List.replicate count (.real 0)
  else (Mixing.product (past.map reals)).map .real

theorem streams_multiplier (initial : Option Record) :
    Streams (feed multiplier params rate machine) initial productOf EvenReal where
  start arity := evenReal_start initial arity
  nothing arity := by
    unfold productOf
    split
    · rfl
    · rename_i many
      have some : (List.replicate arity []).map reals ≠ [] := by
        intro none
        rw [List.map_eq_nil_iff] at none
        simp [none] at many
      have length := Mixing.length_product some
        (List.forall_mem_map.mpr (evenReal_start initial arity))
      rw [List.eq_nil_of_length_eq_zero length, List.map_nil]
  next := by
    intro record past count inputs size after out even arity lengths taken
    obtain ⟨lengths', length, samples⟩ := feed_multiplier lengths taken
    refine ⟨length, evenReal_continued even lengths', ?_⟩
    have arity' : (continued past inputs).length = past.length := by
      simp [continued, arity]
    unfold productOf
    rw [arity', samples, ← arity]
    by_cases few : past.length < 2
    · rw [if_pos few, if_pos few, if_pos few, List.replicate_add]
    · rw [if_neg few, if_neg few, if_neg few, reals_continued,
        Mixing.product_append (by simpa using arity) (List.forall_mem_map.mpr even),
        List.map_append]

/-! ## Running sums -/

def integralOf (limit : Except Fault (Option Float)) (seen : List Sample) : List Float :=
  match limit with
  | .ok (some limit) => Integrator.limited (Elementary.magnitude limit) 0 (reals seen)
  | _ => []

def Accumulated (limit : Except Fault (Option Float)) (record : Option Record)
    (seen : List Sample) : Prop :=
  record = some (.integrator ((integralOf limit seen).getLast?.getD 0))

/-- A running sum that restarts has a limit where it restarts. -/
theorem limitRequest_of_resets (resets : (params.get "resetOnOverflow").isGiven = true)
    {wanted : Option Float} (inForce : limitRequest params = .ok wanted) :
    ∃ limit, wanted = some limit := by
  unfold limitRequest at inForce
  rw [if_pos resets] at inForce
  cases read : (params.getD "maxValue" (.float 1000)).toFloat with
  | error fault =>
      rw [read] at inForce
      cases inForce
  | ok limit =>
      rw [read] at inForce
      cases inForce
      exact ⟨limit, rfl⟩

theorem feed_integrator {limit : Float} {input : Signal} {rest : List Signal} {total : Float}
    (inForce : limitRequest params = .ok (some limit)) (length : input.HasLength size)
    (taken : feed integrator params rate machine (input :: rest) size (some (.integrator total)) =
      (after, .ok out)) :
    out.HasLength size ∧
      out.samples = (Integrator.limited (Elementary.magnitude limit) total
        (reals input.samples)).map .real ∧
      after = some (.integrator ((Integrator.limited (Elementary.magnitude limit) total
        (reals input.samples)).getLast?.getD total)) := by
  have first : (given params rate machine (input :: rest) size).first = some input := rfl
  have limits : limitRequest (given params rate machine (input :: rest) size).params =
      .ok (some limit) := inForce
  simp only [feed, integrator, first, limits, onRecord, Option.bind_some, integratorRecord?,
    integratorStep] at taken
  cases read : realGrid input with
  | error fault =>
      rw [read] at taken
      cases taken
  | ok g =>
      obtain ⟨shape, cells⟩ := realGrid_spec length read
      have line := Grid.line?_of_shape shape
      simp only [read, Except.bind, line] at taken
      cases taken
      rw [cells]
      refine ⟨?_, rfl, rfl⟩
      have whole := hasLength_line
        (Integrator.limited (Elementary.magnitude limit) total g.cells)
      rwa [Integrator.length_limited, Grid.length_cells shape] at whole

theorem streamed_integrator (resets : (params.get "resetOnOverflow").isGiven = true) :
    Streamed integrator params rate machine (some (.integrator 0)) := by
  refine ⟨_, _, streams_ofFirst (.real 0)
    (fun seen => (integralOf (limitRequest params) seen).map .real)
    (Accumulated (limitRequest params)) ?_ ?_ ?_ ?_⟩
  · unfold Accumulated integralOf
    rcases limitRequest params with fault | _ | limit <;> rfl
  · unfold integralOf
    rcases limitRequest params with fault | _ | limit <;> rfl
  · intro size record after out taken
    obtain ⟨-, quiet⟩ := Prod.mk.inj taken
    exact silence_spec quiet
  · intro record seen input rest size after out holds length taken
    have first : (given params rate machine (input :: rest) size).first = some input := rfl
    have reads : limitRequest params = limitRequest
      (given params rate machine (input :: rest) size).params := rfl
    cases inForce : limitRequest params with
    | error fault =>
        rw [reads] at inForce
        simp [feed, integrator, first, inForce] at taken
    | ok wanted =>
        obtain ⟨limit, rfl⟩ := limitRequest_of_resets resets inForce
        rw [Accumulated, inForce] at holds
        subst holds
        obtain ⟨length', samples, kept⟩ := feed_integrator inForce length taken
        refine ⟨length', ?_, ?_⟩
        · rw [kept, Accumulated]
          simp only [integralOf, reals_append]
          rw [Integrator.getLast?_limited_append]
        · rw [samples]
          simp only [integralOf, reals_append]
          rw [Integrator.limited_append, List.map_append]

end Block

end Flowgraph
