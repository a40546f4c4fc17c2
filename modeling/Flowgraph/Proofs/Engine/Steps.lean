import Flowgraph.Engine.Cycle
import Mathlib.Data.List.Nodup

/-!
# Taking steps

A step that is taken appends its output and replaces its own record.  Outputs
are never overwritten, so what a step has seen is still there at the end of the
cycle, and its record is the one it started the cycle with.
-/

namespace Flowgraph

namespace Engine

open Block

def published (outputs : List (String × Signal)) : List String :=
  outputs.map (·.1)

@[simp]
theorem published_append (outputs more : List (String × Signal)) :
    published (outputs ++ more) = published outputs ++ published more :=
  List.map_append

@[simp]
theorem published_singleton (id : String) (signal : Signal) :
    published [(id, signal)] = [id] := rfl

/-! ## Outputs -/

theorem lookup_isSome_iff {outputs : List (String × Signal)} {id : String} :
    (outputs.lookup id).isSome ↔ id ∈ published outputs := by
  rw [List.lookup_isSome_iff, published, List.mem_map]
  constructor
  · rintro ⟨entry, mem, key⟩
    exact ⟨entry, mem, (eq_of_beq key).symm⟩
  · rintro ⟨entry, mem, rfl⟩
    exact ⟨entry, mem, beq_self_eq_true _⟩

theorem lookup_append_of_some {outputs : List (String × Signal)} {id : String} {signal : Signal}
    (h : outputs.lookup id = some signal) (more : List (String × Signal)) :
    (outputs ++ more).lookup id = some signal := by
  rw [List.lookup_append, h, Option.some_or]

theorem lookups_append {outputs : List (String × Signal)} {ids : List String}
    {signals : List Signal} (h : ids.map (outputs.lookup ·) = signals.map some)
    (more : List (String × Signal)) :
    ids.map ((outputs ++ more).lookup ·) = signals.map some := by
  rw [← h]
  refine List.map_congr_left fun id mem => ?_
  have seen : outputs.lookup id ∈ signals.map some := by
    rw [← h]
    exact List.mem_map_of_mem mem
  obtain ⟨signal, -, found⟩ := List.mem_map.mp seen
  rw [lookup_append_of_some found.symm, found]

theorem lookup_append_of_not_mem {outputs : List (String × Signal)} {id : String}
    (new : id ∉ published outputs) (more : List (String × Signal)) :
    (outputs ++ more).lookup id = more.lookup id := by
  have none : outputs.lookup id = none := by
    rw [← Option.not_isSome_iff_eq_none, lookup_isSome_iff]
    exact new
  rw [List.lookup_append, none, Option.none_or]

theorem lookups_of_gather {outputs : List (String × Signal)} {ids : List String}
    {inputs : List (Option Signal)} (h : gather outputs ids = .ok inputs) :
    ids.map (outputs.lookup ·) = inputs ∧ ∃ signals : List Signal, inputs = signals.map some := by
  induction ids generalizing inputs with
  | nil =>
      cases h
      exact ⟨rfl, [], rfl⟩
  | cons id rest ih =>
      unfold gather at h
      cases found : outputs.lookup id with
      | none =>
          rw [found] at h
          cases h
      | some signal =>
          cases gathered : gather outputs rest with
          | error fault =>
              rw [found, gathered] at h
              cases h
          | ok more =>
              rw [found, gathered] at h
              cases h
              obtain ⟨lookups, signals, rfl⟩ := ih gathered
              refine ⟨?_, signal :: signals, rfl⟩
              rw [List.map_cons, found, lookups]

theorem gather_of_lookups {outputs : List (String × Signal)} {ids : List String}
    {signals : List Signal} (h : ids.map (outputs.lookup ·) = signals.map some) :
    gather outputs ids = .ok (signals.map some) := by
  induction ids generalizing signals with
  | nil =>
      cases signals with
      | nil => rfl
      | cons signal more => cases h
  | cons id rest ih =>
      cases signals with
      | nil => cases h
      | cons signal more =>
          obtain ⟨first, others⟩ := List.cons.inj h
          have found : outputs.lookup id = some signal := first
          rw [gather, found, ih others]
          rfl

/-- Nothing that has been put out is missed. -/
theorem exists_gather {outputs : List (String × Signal)} {ids : List String}
    (available : ids ⊆ published outputs) : ∃ inputs, gather outputs ids = .ok inputs := by
  induction ids with
  | nil => exact ⟨[], rfl⟩
  | cons id rest ih =>
      obtain ⟨first, others⟩ := List.cons_subset.mp available
      obtain ⟨signal, found⟩ := Option.isSome_iff_exists.mp (lookup_isSome_iff.mpr first)
      obtain ⟨inputs, gathered⟩ := ih others
      refine ⟨some signal :: inputs, ?_⟩
      rw [gather, found, gathered]
      rfl

/-! ## Records -/

theorem lookup_keep_self (records : Records) (id : String) (record : Option Record) :
    (keep records id record).lookup id = some record := by
  induction records with
  | nil => simp [keep]
  | cons entry rest ih =>
      obtain ⟨k, old⟩ := entry
      by_cases h : k = id
      · simp [keep, h]
      · have other : id ≠ k := fun e => h e.symm
        simpa [keep, h, List.lookup_cons, beq_false_of_ne other] using ih

theorem lookup_keep_of_ne (records : Records) {id other : String} (ne : other ≠ id)
    (record : Option Record) : (keep records id record).lookup other = records.lookup other := by
  induction records with
  | nil => simp [keep, List.lookup_cons, beq_false_of_ne ne]
  | cons entry rest ih =>
      obtain ⟨k, old⟩ := entry
      by_cases h : k = id
      · have past : other ≠ k := fun e => ne (e.trans h)
        rw [keep, if_pos h, List.lookup_cons, List.lookup_cons, beq_false_of_ne past]
      · rw [keep, if_neg h, List.lookup_cons, List.lookup_cons, ih]

/-! ## One step -/

variable {settings : Settings} {machine : Machine}

/-- Everything that taking a step can do when it does not fail. -/
theorem takeStep_spec {p q : Progress} {step : Step}
    (h : takeStep settings machine p step = (q, none)) :
    ∃ inputs before after signal,
      gather p.outputs step.dependencies = .ok inputs ∧
      currentRecord p.records step = .ok before ∧
      step.process (contextOf settings machine step inputs) before = (after, .ok signal) ∧
      q = ⟨p.outputs ++ [(step.node.id, signal)], keep p.records step.node.id after⟩ := by
  unfold takeStep at h
  cases gathered : gather p.outputs step.dependencies with
  | error fault =>
      rw [gathered] at h
      cases h
  | ok inputs =>
      cases started : currentRecord p.records step with
      | error fault =>
          rw [gathered, started] at h
          cases h
      | ok before =>
          rcases processed : step.process (contextOf settings machine step inputs) before with
            ⟨after, fault | signal⟩
          · simp only [gathered, started, processed] at h
            cases h
          · simp only [gathered, started, processed] at h
            cases h
            exact ⟨inputs, before, after, signal, rfl, rfl, processed, rfl⟩

/--
Everything that taking a step can do when it does not get through: an input or
the record is missing and nothing has happened, or the block fails and leaves
its record.
-/
theorem takeStep_interrupted {p q : Progress} {step : Step} {i : Interruption}
    (h : takeStep settings machine p step = (q, some i)) :
    (∃ fault, i = .before fault ∧ q = p ∧
      (gather p.outputs step.dependencies = .error fault ∨
        currentRecord p.records step = .error fault)) ∨
    ∃ inputs before after fault,
      gather p.outputs step.dependencies = .ok inputs ∧
      currentRecord p.records step = .ok before ∧
      step.process (contextOf settings machine step inputs) before = (after, .error fault) ∧
      i = .inside step fault ∧ q = ⟨p.outputs, keep p.records step.node.id after⟩ := by
  unfold takeStep at h
  cases gathered : gather p.outputs step.dependencies with
  | error fault =>
      rw [gathered] at h
      cases h
      exact .inl ⟨fault, rfl, rfl, .inl rfl⟩
  | ok inputs =>
      cases started : currentRecord p.records step with
      | error fault =>
          rw [gathered, started] at h
          cases h
          exact .inl ⟨fault, rfl, rfl, .inr rfl⟩
      | ok before =>
          rcases processed : step.process (contextOf settings machine step inputs) before with
            ⟨after, fault | signal⟩
          · simp only [gathered, started, processed] at h
            cases h
            exact .inr ⟨inputs, before, after, fault, rfl, rfl, processed, rfl, rfl⟩
          · simp only [gathered, started, processed] at h
            cases h

/-! ## All steps -/

/-- A cycle that is interrupted has taken the steps before the one that does not get through. -/
theorem takeSteps_interrupted {p q : Progress} {steps : List Step} {i : Interruption}
    (h : takeSteps settings machine p steps = (q, some i)) :
    ∃ done step rest p', steps = done ++ step :: rest ∧
      takeSteps settings machine p done = (p', none) ∧
      takeStep settings machine p' step = (q, some i) := by
  induction steps generalizing p with
  | nil => cases h
  | cons step rest ih =>
      unfold takeSteps at h
      rcases taken : takeStep settings machine p step with ⟨p', _ | j⟩
      · rw [taken] at h
        obtain ⟨done, other, rest', p'', rfl, before, stopped⟩ := ih h
        refine ⟨step :: done, other, rest', p'', rfl, ?_, stopped⟩
        rw [takeSteps, taken]
        exact before
      · rw [taken] at h
        cases h
        exact ⟨[], step, rest, p, rfl, rfl, taken⟩

/-- Steps that are all taken put out one output each, in their order. -/
theorem published_of_takeSteps {p q : Progress} {steps : List Step}
    (h : takeSteps settings machine p steps = (q, none)) :
    published q.outputs = published p.outputs ++ steps.map (·.node.id) := by
  induction steps generalizing p with
  | nil =>
      cases h
      simp
  | cons step rest ih =>
      unfold takeSteps at h
      rcases taken : takeStep settings machine p step with ⟨p', _ | interruption⟩
      · rw [taken] at h
        obtain ⟨_, _, _, signal, -, -, -, rfl⟩ := takeStep_spec taken
        rw [ih h]
        simp
      · rw [taken] at h
        cases h

theorem published_takeSteps {kept : Records} {p : Progress} {steps : List Step}
    (taken : takeSteps settings machine ⟨[], kept⟩ steps = (p, none)) :
    published p.outputs = steps.map (·.node.id) :=
  published_of_takeSteps taken

/-- A step that does not get through ends the cycle, whatever was to come after it. -/
theorem takeSteps_of_interrupted {p p' q : Progress} {done rest : List Step} {step : Step}
    {i : Interruption} (before : takeSteps settings machine p done = (p', none))
    (stopped : takeStep settings machine p' step = (q, some i)) :
    takeSteps settings machine p (done ++ step :: rest) = (q, some i) := by
  induction done generalizing p with
  | nil =>
      cases before
      rw [List.nil_append, takeSteps, stopped]
  | cons first more ih =>
      unfold takeSteps at before
      rcases taken : takeStep settings machine p first with ⟨p₁, _ | interruption⟩
      · rw [taken] at before
        rw [List.cons_append, takeSteps, taken]
        exact ih before
      · rw [taken] at before
        cases before

/--
A step was taken in a cycle that started with some records: it saw what its
dependencies put out and its own record, and left its output and its record.
-/
def Ran (settings : Settings) (machine : Machine) (kept : Records) (q : Progress) (step : Step) :
    Prop :=
  ∃ (signals : List Signal) (before after : Option Record) (signal : Signal),
    step.dependencies.map (q.outputs.lookup ·) = signals.map some ∧
    currentRecord kept step = .ok before ∧
    step.process (contextOf settings machine step (signals.map some)) before =
      (after, .ok signal) ∧
    q.outputs.lookup step.node.id = some signal ∧
    q.records.lookup step.node.id = some after

/-- What has run is not touched by steps of other nodes. -/
theorem Ran.later {kept : Records} {p q : Progress} {step : Step}
    (h : Ran settings machine kept p step) (outputs : p.outputs <+: q.outputs)
    (records : q.records.lookup step.node.id = p.records.lookup step.node.id) :
    Ran settings machine kept q step := by
  obtain ⟨signals, before, after, signal, inputs, started, processed, output, record⟩ := h
  obtain ⟨more, extended⟩ := outputs
  rw [Ran, ← extended]
  exact ⟨signals, before, after, signal, lookups_append inputs more, started, processed,
    lookup_append_of_some output more, records.trans record⟩

/-- A step that is taken has run, and leaves the records of other nodes alone. -/
theorem ran_of_takeStep {p q : Progress} {step : Step} (new : step.node.id ∉ published p.outputs)
    (h : takeStep settings machine p step = (q, none)) :
    published q.outputs = published p.outputs ++ [step.node.id] ∧ p.outputs <+: q.outputs ∧
      (∀ id, id ≠ step.node.id → q.records.lookup id = p.records.lookup id) ∧
      Ran settings machine p.records q step := by
  obtain ⟨inputs, before, after, signal, gathered, started, processed, rfl⟩ := takeStep_spec h
  obtain ⟨lookups, signals, rfl⟩ := lookups_of_gather gathered
  refine ⟨by simp, List.prefix_append _ _, fun id ne => lookup_keep_of_ne _ ne _, ?_⟩
  refine ⟨signals, before, after, signal, lookups_append lookups _, started, processed, ?_,
    lookup_keep_self _ _ _⟩
  rw [lookup_append_of_not_mem new]
  simp

/-- In a cycle that is not interrupted every step runs once, on the record of before the cycle. -/
theorem ran_of_takeSteps {p q : Progress} {steps : List Step}
    (distinct : (published p.outputs ++ steps.map (·.node.id)).Nodup)
    (h : takeSteps settings machine p steps = (q, none)) :
    published q.outputs = published p.outputs ++ steps.map (·.node.id) ∧
      p.outputs <+: q.outputs ∧
      (∀ id ∉ steps.map (·.node.id), q.records.lookup id = p.records.lookup id) ∧
      ∀ step ∈ steps, Ran settings machine p.records q step := by
  induction steps generalizing p with
  | nil =>
      cases h
      simp
  | cons step rest ih =>
      unfold takeSteps at h
      rcases taken : takeStep settings machine p step with ⟨p', _ | interruption⟩
      · rw [taken] at h
        have split : (published p.outputs ++ step.node.id :: rest.map (·.node.id)).Nodup := distinct
        have new : step.node.id ∉ published p.outputs :=
          fun mem => (List.disjoint_of_nodup_append split) mem List.mem_cons_self
        obtain ⟨keys, prior, others, ran⟩ := ran_of_takeStep new taken
        have once : step.node.id ∉ rest.map (·.node.id) :=
          (List.nodup_cons.mp split.of_append_right).1
        obtain ⟨keys', prior', others', ran'⟩ :=
          ih (by rw [keys]; simpa using split) h
        refine ⟨?_, prior.trans prior', ?_, ?_⟩
        · rw [keys', keys]
          simp
        · intro id other
          have ne : id ≠ step.node.id := List.ne_of_not_mem_cons other
          rw [others' id (List.not_mem_of_not_mem_cons other), others id ne]
        · intro s mem
          rcases List.mem_cons.mp mem with rfl | mem
          · exact ran.later prior' (others' _ once)
          · obtain ⟨signals, before, after, signal, inputs, started, rest⟩ := ran' s mem
            refine ⟨signals, before, after, signal, inputs, ?_, rest⟩
            have ne : s.node.id ≠ step.node.id :=
              fun e => once (e ▸ List.mem_map_of_mem mem)
            rw [← started, currentRecord, currentRecord, others _ ne]
      · rw [taken] at h
        cases h

end Engine

end Flowgraph
