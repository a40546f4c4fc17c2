import Flowgraph.Proofs.Catalog.Builtin
import Flowgraph.Proofs.Engine.Dataflow

/-!
# What a host sees of an engine

A host sees what its calls give back, the outputs of the nodes after a cycle
and the counts.  What nodes keep is only looked at by cycles, and an engine only
gets to run cycles by a start, which drops everything that was kept.
-/

namespace Flowgraph

namespace Engine

open Block Flowgraph.Graph

inductive Answer where
  | prepared (result : Except Fault (List Notice))
  | started (success : Bool) (notices : List Notice)
  | stopped
  | configured (result : Except Fault Settings)
  | dropped
  | cycled (result : Except Fault (Option (List SinkOutput))) (notices : List Notice)
  | record (record : Option Record)

def answer (e : Engine) : Call → Answer
  | .prepare plan change => .prepared ((e.prepare plan change).map (·.2))
  | .start => .started e.start.2.1 e.start.2.2
  | .stop => .stopped
  | .configure change => .configured ((e.configure change).map (·.settings))
  | .reset => .dropped
  | .cycle machine => .cycled (e.cycle machine).result (e.cycle machine).notices
  | .recordFor id => .record (e.recordFor id).2

/-- What a host sees of a call: the answer, the outputs after a cycle, and where the engine is. -/
structure Sight where
  answer : Answer
  outputs : Option (List (String × Signal))
  status : Status
  cycles : Nat
  samples : Nat

def sight (e : Engine) (call : Call) : Sight where
  answer := e.answer call
  outputs :=
    match call with
    | .cycle _ => some (e.perform call).outputs
    | _ => none
  status := (e.perform call).status
  cycles := (e.perform call).cycles
  samples := (e.perform call).samples

def transcript (e : Engine) : List Call → List Sight
  | [] => []
  | call :: rest => e.sight call :: transcript (e.perform call) rest

/-! ## Engines that answer alike -/

/--
Two engines that may differ in outputs and timings of the past, and, unless
they run, in what their nodes keep.
-/
structure Alike (e e' : Engine) : Prop where
  catalog : e'.catalog = e.catalog
  settings : e'.settings = e.settings
  plan : e'.plan = e.plan
  steps : e'.steps = e.steps
  status : e'.status = e.status
  cycles : e'.cycles = e.cycles
  samples : e'.samples = e.samples
  records : e.status = .running → e'.records = e.records

variable {e e' : Engine}

/--
A cycle gives the same in both.  Afterwards the outputs are the same, if they
were before or the cycle has put out its own.
-/
theorem Alike.cycle (alike : Alike e e') (machine : Machine) :
    (e'.cycle machine).result = (e.cycle machine).result ∧
      (e'.cycle machine).notices = (e.cycle machine).notices ∧
      Alike (e.cycle machine).engine (e'.cycle machine).engine ∧
      (e'.outputs = e.outputs ∨ e.status = .running ∧ e.plan.isSome →
        (e'.cycle machine).engine.outputs = (e.cycle machine).engine.outputs) := by
  by_cases idle : e.status ≠ .running ∨ e.plan = none
  · have idle' : e'.status ≠ .running ∨ e'.plan = none := by rwa [alike.status, alike.plan]
    rw [cycle_of_idle machine idle, cycle_of_idle machine idle']
    exact ⟨rfl, rfl, alike, fun shown => by grind⟩
  · obtain ⟨runs, planned⟩ := not_or.mp idle
    rw [not_not] at runs
    obtain ⟨plan, loaded⟩ := Option.ne_none_iff_exists'.mp planned
    rw [cycle_of_running machine runs loaded,
      cycle_of_running machine (alike.status.trans runs) (alike.plan.trans loaded),
      alike.settings, alike.steps, alike.records runs]
    rcases takeSteps e.settings machine ⟨[], e.records⟩ e.steps with ⟨p, _ | fault | ⟨step, fault⟩⟩
    · refine ⟨rfl, rfl, ⟨alike.catalog, alike.settings, alike.plan, alike.steps, alike.status,
        ?_, ?_, fun _ => rfl⟩, fun _ => rfl⟩
      · simp only [completed, alike.cycles]
      · simp only [completed, alike.samples, alike.settings]
    · exact ⟨rfl, rfl, ⟨alike.catalog, alike.settings, alike.plan, alike.steps, alike.status,
        alike.cycles, alike.samples, fun _ => rfl⟩, fun _ => rfl⟩
    · refine ⟨rfl, rfl, ⟨alike.catalog, alike.settings, alike.plan, alike.steps, ?_,
        alike.cycles, alike.samples, fun _ => rfl⟩, fun _ => rfl⟩
      simp only [interrupted, stop, alike.plan]

theorem Alike.perform (alike : Alike e e') (call : Call) :
    Alike (e.perform call) (e'.perform call) := by
  cases call with
  | cycle machine => exact (alike.cycle machine).2.2.1
  | prepare plan change =>
      rw [perform_prepare, perform_prepare, alike.settings]
      cases change.apply e.settings with
      | error fault => exact alike
      | ok settings =>
          exact ⟨alike.catalog, rfl, rfl, congrArg (stepsOf · plan) alike.catalog, rfl, rfl, rfl,
            fun _ => rfl⟩
  | start =>
      rw [perform_start, perform_start, alike.plan]
      split
      · exact ⟨alike.catalog, alike.settings, rfl, alike.steps, rfl, rfl, rfl, fun _ => rfl⟩
      · exact alike
  | stop =>
      refine ⟨alike.catalog, alike.settings, alike.plan, alike.steps, ?_, alike.cycles,
        alike.samples, fun runs => ?_⟩
      · simp only [Engine.perform, stop, alike.plan]
      · simp only [Engine.perform, stop] at runs
        grind
  | configure change =>
      rw [perform_configure, perform_configure, alike.settings]
      cases change.apply e.settings with
      | error fault => exact alike
      | ok settings =>
          exact ⟨alike.catalog, rfl, alike.plan, alike.steps, alike.status, alike.cycles,
            alike.samples, alike.records⟩
  | reset =>
      exact ⟨alike.catalog, alike.settings, rfl, rfl, rfl, alike.cycles, alike.samples,
        fun _ => rfl⟩
  | recordFor id =>
      rw [perform_recordFor, perform_recordFor]
      refine ⟨alike.catalog, alike.settings, alike.plan, alike.steps, alike.status, alike.cycles,
        alike.samples, fun runs => ?_⟩
      simp only [alike.records runs]

theorem Alike.answer (alike : Alike e e') {call : Call} (unread : ∀ id, call ≠ .recordFor id) :
    e'.answer call = e.answer call := by
  cases call with
  | cycle machine =>
      obtain ⟨result, notices, -⟩ := alike.cycle machine
      simp only [Engine.answer, result, notices]
  | prepare plan change =>
      simp only [Engine.answer, prepare, alike.settings, alike.catalog]
      cases change.apply e.settings <;> rfl
  | start =>
      simp only [Engine.answer, start, alike.plan]
      cases e.plan <;> rfl
  | stop => rfl
  | configure change =>
      simp only [Engine.answer, configure, alike.settings]
      cases change.apply e.settings <;> rfl
  | reset => rfl
  | recordFor id => exact absurd rfl (unread id)

theorem Alike.outputs_perform (alike : Alike e e') (shown : e'.outputs = e.outputs) (call : Call) :
    (e'.perform call).outputs = (e.perform call).outputs := by
  cases call with
  | cycle machine => exact (alike.cycle machine).2.2.2 (.inl shown)
  | prepare plan change =>
      rw [perform_prepare, perform_prepare, alike.settings]
      split
      · exact shown
      · rfl
  | start =>
      rw [perform_start, perform_start, alike.plan]
      split <;> exact shown
  | stop => exact shown
  | configure change =>
      rw [perform_configure, perform_configure, alike.settings]
      split <;> exact shown
  | reset => rfl
  | recordFor id =>
      rw [perform_recordFor, perform_recordFor]
      exact shown

/-! ## Transcripts -/

theorem Alike.sight (alike : Alike e e') {call : Call} (unread : ∀ id, call ≠ .recordFor id)
    (shown : ∀ machine, call = .cycle machine → (e'.perform call).outputs = (e.perform call).outputs) :
    e'.sight call = e.sight call := by
  have after := alike.perform call
  have answered := alike.answer unread
  unfold Engine.sight
  rw [answered, after.status, after.cycles, after.samples]
  cases call with
  | cycle machine => rw [shown machine rfl]
  | _ => rfl

/-- Engines that are alike and show the same outputs cannot be told apart without their records. -/
theorem Alike.transcript (alike : Alike e e') (shown : e'.outputs = e.outputs) {calls : List Call}
    (unread : ∀ id, .recordFor id ∉ calls) : e'.transcript calls = e.transcript calls := by
  induction calls generalizing e e' with
  | nil => rfl
  | cons call rest ih =>
      have other : ∀ id, call ≠ .recordFor id := fun id h => unread id (h ▸ List.mem_cons_self)
      have outputs := alike.outputs_perform shown call
      rw [Engine.transcript, Engine.transcript, alike.sight other fun _ _ => outputs,
        ih (alike.perform call) outputs fun id mem => unread id (List.mem_cons_of_mem call mem)]

/-- The calls by which a host keeps an engine going. -/
def Call.Steady : Call → Prop
  | configure _ | cycle _ => True
  | _ => False

/-- In engines that run, what was put out before the first cycle is not seen. -/
theorem Alike.transcript_steady (alike : Alike e e') (runs : e.status = .running)
    (planned : e.plan.isSome) {calls : List Call} (steady : ∀ call ∈ calls, call.Steady) :
    e'.transcript calls = e.transcript calls := by
  induction calls generalizing e e' with
  | nil => rfl
  | cons call rest ih =>
      obtain ⟨now, later⟩ := List.forall_mem_cons.mp steady
      cases call with
      | cycle machine =>
          have outputs : (e'.perform (.cycle machine)).outputs = (e.perform (.cycle machine)).outputs :=
            (alike.cycle machine).2.2.2 (.inr ⟨runs, planned⟩)
          have seen : e'.sight (.cycle machine) = e.sight (.cycle machine) :=
            alike.sight (by simp) fun _ _ => outputs
          rw [Engine.transcript, Engine.transcript, seen,
            (alike.perform (.cycle machine)).transcript outputs fun id mem => later _ mem]
      | configure change =>
          have kept : SamePlan e (e.perform (.configure change)) ∧
              (e.perform (.configure change)).status = e.status := by
            rw [perform_configure]
            split <;> exact ⟨⟨rfl, rfl, rfl⟩, rfl⟩
          have seen : e'.sight (.configure change) = e.sight (.configure change) :=
            alike.sight (by simp) (by simp)
          rw [Engine.transcript, Engine.transcript, seen,
            ih (alike.perform _) (kept.2.trans runs) (by rw [kept.1.plan]; exact planned) later]
      | _ => exact now.elim

/-- An engine after a start is like a new one that has loaded the plan and started. -/
theorem alike_start {catalog : Catalog} (consistent : Consistent catalog e) {plan : Plan}
    (loaded : e.plan = some plan) :
    Alike (e.perform .start)
      (((new catalog).perform (.prepare plan (.replace e.settings))).perform .start) := by
  rw [perform_start_of_plan loaded]
  have steps := consistent.steps_of_plan loaded
  exact ⟨consistent.catalog_eq.symm, rfl, loaded.symm, steps.symm, rfl, rfl, rfl, fun _ => rfl⟩

/-! ## Cycles that fail -/

def BlockFails (machine : Machine) (e : Engine) : Prop :=
  e.status = .running ∧ e.plan.isSome ∧ ∃ p step fault,
    takeSteps e.settings machine ⟨[], e.records⟩ e.steps = (p, some (.inside step fault))

theorem BlockFails.stopped {machine : Machine} (fails : e.BlockFails machine) :
    (e.perform (.cycle machine)).status = .ready := by
  obtain ⟨runs, planned, p, step, fault, taken⟩ := fails
  obtain ⟨plan, loaded⟩ := Option.isSome_iff_exists.mp planned
  rw [perform, cycle_of_running machine runs loaded, taken]
  simp [interrupted, stop, loaded]

variable {checker : Catalog} {nodes : List Node} {edges : List Edge} {c : Compiled}

theorem exists_recordAt (kept : Records) (n : Node) :
    ∃ record, recordAt .builtin kept n = .ok record := by
  unfold recordAt initialOf
  cases kept.lookup n.id with
  | some record => exact ⟨record, rfl⟩
  | none =>
      cases resolved : Catalog.builtin.resolve n.blockType with
      | none => exact ⟨none, rfl⟩
      | some d =>
          obtain ⟨initial, fresh⟩ :=
            Catalog.exists_initialRecord_of_mem (Catalog.mem_blocks_of_resolve resolved)
          exact ⟨initial, fresh⟩

/-- In a plan that was compiled, nothing but a block can fail. -/
theorem blockFails_of_compile (compiled : compile checker nodes edges = .ok c)
    (consistent : Consistent .builtin e) (loaded : e.plan = some c.plan) {machine : Machine}
    {fault : Fault} (failed : (e.cycle machine).result = .error fault) : e.BlockFails machine := by
  rcases cycle_cases machine e with ⟨-, h⟩ | ⟨_, _, -, -, -, h⟩ | ⟨_, p, i, runs, planned, taken, -⟩
  · rw [h] at failed
    cases failed
  · rw [h] at failed
    cases failed
  · refine ⟨runs, by rw [loaded]; rfl, ?_⟩
    obtain ⟨done, step, rest, p', split, before, stopped⟩ := takeSteps_interrupted taken
    rw [consistent.steps_of_plan loaded] at split
    rcases takeStep_interrupted stopped with ⟨_, -, -, missing⟩ | ⟨_, _, _, fault, -, -, -, rfl, -⟩
    · exfalso
      have mem : step ∈ stepsOf .builtin c.plan := by simp [split]
      obtain ⟨n, -, rfl⟩ := List.mem_map.mp mem
      rcases missing with missing | missing
      · obtain ⟨inputs, gathered⟩ := exists_gather_of_compile compiled split before
        rw [gathered] at missing
        cases missing
      · obtain ⟨record, there⟩ := exists_recordAt p'.records n
        rw [currentRecord_stepOf, there] at missing
        cases missing
    · exact ⟨p, step, fault, taken⟩

/--
A start drops the past.  From a start on, an engine that holds a plan answers
cycles and changes of settings like a new engine that loads the plan with the
settings in force and starts.  What nodes keep of a cycle in which a block
failed is never seen again, whatever the host does; and with a plan that was
compiled only a block can fail.
-/
theorem start_forgets (reachable : Reachable .builtin e) {plan : Plan}
    (loaded : e.plan = some plan) :
    (∀ calls : List Call, (∀ call ∈ calls, call.Steady) →
      e.transcript (.start :: calls) =
        ((new .builtin).perform (.prepare plan (.replace e.settings))).transcript
          (.start :: calls)) ∧
    (∀ machine, e.BlockFails machine → ∀ (records : Records) (calls : List Call),
      (∀ id, .recordFor id ∉ calls) →
        Engine.transcript { e.perform (.cycle machine) with records := records } calls =
          (e.perform (.cycle machine)).transcript calls) ∧
    ∀ checker nodes edges c, compile checker nodes edges = .ok c → plan = c.plan →
      ∀ machine fault, (e.cycle machine).result = .error fault → e.BlockFails machine := by
  refine ⟨?_, ?_, ?_⟩
  · intro calls steady
    have alike := alike_start reachable.consistent loaded
    have planned : (e.perform .start).plan.isSome := by simp [perform_start_of_plan loaded, loaded]
    have runs : (e.perform .start).status = .running := by rw [perform_start_of_plan loaded]
    have started : ∀ e' : Engine, e'.plan.isSome →
        e'.sight .start = ⟨.started true [], none, .running, 0, 0⟩ := by
      intro e' planned'
      obtain ⟨plan', loaded'⟩ := Option.isSome_iff_exists.mp planned'
      simp [Engine.sight, Engine.answer, perform_start, start, loaded']
    rw [Engine.transcript, Engine.transcript, alike.transcript_steady runs planned steady,
      started e (by rw [loaded]; rfl), started _ rfl]
  · intro machine fails records calls unread
    have alike : Alike (e.perform (.cycle machine))
        { e.perform (.cycle machine) with records := records } := by
      refine ⟨rfl, rfl, rfl, rfl, rfl, rfl, rfl, fun runs => ?_⟩
      rw [fails.stopped] at runs
      cases runs
    exact alike.transcript rfl unread
  · intro checker nodes edges c compiled same machine fault failed
    exact blockFails_of_compile compiled reachable.consistent (loaded.trans (congrArg some same))
      failed

def unordered : List Node × List Edge :=
  ([⟨"tape", "AUDIO_FILE",
      [("audioData", .object [("samples", .list [.int 2, .int (-1)])]), ("loop", .bool true)],
      none⟩,
    ⟨"low", "LOWPASS_FIR", [("order", .null)], none⟩],
   [⟨"e1", "tape", "low", none, none⟩])

theorem compile_unordered :
    compile .builtin unordered.1 unordered.2 =
      .ok ⟨exactPlan unordered.2 unordered.1, ⟨2, 1, 2, 1, 1⟩⟩ := by
  have fit : edgeFailures .builtin unordered.1 unordered.2 = .ok [] := by rfl
  rw [compile, compileWith, fit]
  cbv

def stumbling : Engine :=
  ((new .builtin).perform
    (.prepare (exactPlan unordered.2 unordered.1) (.replace (sized 2 Nat.two_pos)))).perform .start

theorem start_forgets_stumbling :
    Reachable .builtin stumbling ∧ stumbling.plan = some (exactPlan unordered.2 unordered.1) ∧
      stumbling.BlockFails .bare ∧
      (∀ records : Records,
        Engine.transcript { stumbling.perform (.cycle .bare) with records := records }
            [.start, .cycle .bare] =
          (stumbling.perform (.cycle .bare)).transcript [.start, .cycle .bare]) ∧
      (stumbling.perform (.cycle .bare)).transcript [.start, .cycle .bare] =
        ((new .builtin).perform
          (.prepare (exactPlan unordered.2 unordered.1) (.replace (sized 2 (by decide))))).transcript
          [.start, .cycle .bare] := by
  have reachable : Reachable .builtin stumbling := .call _ (.call _ .new)
  have loaded : stumbling.plan = some (exactPlan unordered.2 unordered.1) := rfl
  obtain ⟨-, unseen, only⟩ := start_forgets reachable loaded
  have failed : ∃ fault, (stumbling.cycle .bare).result = .error fault := by
    have refused : (stumbling.cycle .bare).result.toOption.isNone := by rfl
    cases result : (stumbling.cycle .bare).result with
    | error fault => exact ⟨fault, rfl⟩
    | ok outputs =>
        rw [result] at refused
        cases refused
  obtain ⟨fault, result⟩ := failed
  have fails := only .builtin _ _ _ compile_unordered rfl _ fault result
  -- the engine after the failure is started again
  have again : (stumbling.perform (.cycle .bare)).plan =
      some (exactPlan unordered.2 unordered.1) := (samePlan_cycle _ _).plan.trans loaded
  obtain ⟨anew, -⟩ := start_forgets (.call (.cycle .bare) reachable) again
  refine ⟨reachable, loaded, fails, fun records => unseen _ fails records _ (by simp), ?_⟩
  exact anew [.cycle .bare] (by simp [Call.Steady])

end Engine

end Flowgraph
