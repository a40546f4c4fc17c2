import Flowgraph.Proofs.Engine.Lifecycle
import Flowgraph.Proofs.Engine.Settings
import Flowgraph.Proofs.Engine.Transcript

/-!
# What a failure leaves

A block that fails ends its cycle: nothing of the cycle is shown or counted, and
the engine rests until it is started again.  Settings that are refused change
nothing at all.
-/

namespace Flowgraph

namespace Engine

open Block Flowgraph.Graph

variable {catalog : Catalog} {e : Engine}

/-! ## Resting -/

theorem resting_perform (resting : e.status ≠ .running) {call : Call}
    (unstarted : e.starts call = false) : (e.perform call).status ≠ .running := by
  cases call with
  | prepare plan change =>
      rw [perform_prepare]
      cases change.apply e.settings with
      | error fault => exact resting
      | ok settings => simp [load]
  | start =>
      have unplanned : e.plan.isSome = false := by
        rw [← Bool.not_eq_true, ← starts_iff]
        simpa [starts] using unstarted
      rw [perform_start, unplanned]
      exact resting
  | stop =>
      simp only [perform, stop]
      split <;> simp
  | configure change =>
      rw [perform_configure]
      cases change.apply e.settings with
      | error fault => exact resting
      | ok settings => exact resting
  | reset => simp [perform, reset]
  | cycle machine =>
      rw [perform_cycle, cycle_of_idle machine (.inl resting)]
      exact resting
  | recordFor id =>
      rw [perform_recordFor]
      exact resting

theorem resting_performAll (resting : e.status ≠ .running) {calls : List Call}
    (unstarted : ∀ now ∈ e.episodes calls, now.1.starts now.2 = false) :
    (e.performAll calls).status ≠ .running := by
  induction calls generalizing e with
  | nil => exact resting
  | cons call rest ih =>
      obtain ⟨first, later⟩ := List.forall_mem_cons.mp unstarted
      exact ih (resting_perform resting first) later

/-! ## Blocks that fail -/

/--
In the next cycle of an engine the block of a step fails.  The steps before it
have been taken to `p` by then, and the block leaves a record.
-/
structure FailsAt (machine : Machine) (e : Engine) (done : List Step) (step : Step) (p : Progress)
    (left : Option Record) (fault : Fault) : Prop where
  running : e.status = .running
  position : ∃ rest, e.steps = done ++ step :: rest
  before : takeSteps e.settings machine ⟨[], e.records⟩ done = (p, none)
  failed : ∃ inputs record,
    gather p.outputs step.dependencies = .ok inputs ∧
    currentRecord p.records step = .ok record ∧
    step.process (contextOf e.settings machine step inputs) record = (left, .error fault)

variable {machine : Machine} {done : List Step} {step : Step} {p : Progress} {left : Option Record}
  {fault : Fault}

theorem FailsAt.taken (fails : e.FailsAt machine done step p left fault) :
    takeSteps e.settings machine ⟨[], e.records⟩ e.steps =
      (⟨p.outputs, keep p.records step.node.id left⟩, some (.inside step fault)) := by
  obtain ⟨rest, split⟩ := fails.position
  obtain ⟨inputs, record, gathered, current, processed⟩ := fails.failed
  have stopped : takeStep e.settings machine p step =
      (⟨p.outputs, keep p.records step.node.id left⟩, some (.inside step fault)) := by
    simp only [takeStep, gathered, current, processed]
  rw [split]
  exact takeSteps_of_interrupted fails.before stopped

/-- A failure shows in the result, in the status and in what the nodes keep, and nowhere else. -/
theorem FailsAt.cycle (fails : e.FailsAt machine done step p left fault) {plan : Graph.Plan}
    (loaded : e.plan = some plan) :
    (e.cycle machine).result = .error fault ∧
      (e.cycle machine).engine =
        { e with
          status := .ready
          outputs := []
          records := keep p.records step.node.id left } := by
  rw [cycle_of_running machine fails.running loaded, fails.taken]
  simp [interrupted, Interruption.fault, stop, loaded]

/-! ## What holds in every engine of a host -/

/--
Wherever in the plan a block fails, its fault is what the cycle gives back.  The
engine is ready and shows no output, its plan, settings, counts and timings are
as before, and no cycle does anything before a start succeeds.  And whatever is
wrong with the entries of a mapping of settings, changing to it and loading a
plan with it are refused for that very reason, and the engine stays as it is.
-/
theorem failure_atomic (reachable : Reachable catalog e) :
    (∀ machine done step p left fault, e.FailsAt machine done step p left fault →
      (e.cycle machine).result = .error fault ∧
      (e.cycle machine).engine =
        { e with
          status := .ready
          outputs := []
          records := keep p.records step.node.id left } ∧
      ∀ calls, (∀ now ∈ (e.cycle machine).engine.episodes calls, now.1.starts now.2 = false) →
        ∀ machine',
          (((e.cycle machine).engine.performAll calls).cycle machine').result = .ok none ∧
          (((e.cycle machine).engine.performAll calls).cycle machine').engine =
            (e.cycle machine).engine.performAll calls) ∧
    ∀ entries fault,
      Settings.Refuses (e.settings.rateEntry entries) (e.settings.sizeEntry entries) fault →
      e.configure (.overlay (.object entries)) = .error fault ∧
      e.perform (.configure (.overlay (.object entries))) = e ∧
      ∀ plan,
        e.prepare plan (.overlay (.object entries)) = .error fault ∧
        e.perform (.prepare plan (.overlay (.object entries))) = e := by
  obtain ⟨sizes, h⟩ := reachable.exists_lifecycle
  constructor
  · intro machine done step p left fault fails
    obtain ⟨plan, loaded⟩ := h.exists_plan (by simp [fails.running])
    obtain ⟨result, engine⟩ := fails.cycle loaded
    refine ⟨result, engine, fun calls unstarted machine' => ?_⟩
    have resting : ((e.cycle machine).engine.performAll calls).status ≠ .running :=
      resting_performAll (by simp [engine]) unstarted
    rw [cycle_of_idle machine' (.inl resting)]
    exact ⟨rfl, rfl⟩
  · intro entries fault refuses
    have refused : Settings.Change.apply e.settings (.overlay (.object entries)) = .error fault := by
      rw [Settings.apply_overlay, Settings.ofValues_eq_error_iff]
      exact refuses
    refine ⟨?_, ?_, fun plan => ⟨?_, ?_⟩⟩
    · rw [configure, refused]
    · rw [perform_configure, refused]
    · rw [prepare, refused]
    · rw [perform_prepare, refused]

/-- A filter without an order fails after a tape has run, and a sample rate of zero is refused. -/
theorem failure_atomic_stumbling :
    Reachable .builtin stumbling ∧
      (∃ done step p left fault, done.map (·.node.id) = ["tape"] ∧
        stumbling.FailsAt .bare done step p left fault ∧
        (stumbling.cycle .bare).result = .error fault ∧
        (stumbling.cycle .bare).engine.status = .ready) ∧
      stumbling.configure (.overlay (.object [("sampleRate", .int 0)])) =
        .error .sampleRateNotPositive := by
  have reachable : Reachable .builtin stumbling := .call _ (.call _ .new)
  obtain ⟨fails, refuses⟩ := failure_atomic reachable
  refine ⟨reachable, ?_, ?_⟩
  · have taken : (takeSteps stumbling.settings .bare ⟨[], stumbling.records⟩
        (stumbling.steps.take 1)).2.isNone := by rfl
    have stumbles : stumbling.FailsAt .bare (stumbling.steps.take 1)
        (stepOf .builtin (exactPlan unordered.2 unordered.1)
          ⟨"low", "LOWPASS_FIR", [("order", .null)], none⟩)
        (takeSteps stumbling.settings .bare ⟨[], stumbling.records⟩
          (stumbling.steps.take 1)).1 (some (.filter .fresh)) (.notInteger "NoneType") :=
      ⟨rfl, ⟨[], rfl⟩, Prod.ext rfl (Option.isNone_iff_eq_none.mp taken), _, _, rfl, rfl, rfl⟩
    obtain ⟨result, engine, -⟩ := fails _ _ _ _ _ _ stumbles
    exact ⟨_, _, _, _, _, rfl, stumbles, result, by rw [engine]⟩
  · exact (refuses [("sampleRate", .int 0)] _ (.rateNotPositive rfl rfl (by decide))).1

end Engine

end Flowgraph
