import Flowgraph.Proofs.Engine.Dataflow
import Mathlib.Data.List.DropRight

/-!
# The life of an engine

Where an engine is in its life, what it shows and what it counts, after any
calls.  The counts are those of the cycles completed since a plan was last
loaded or the engine was last started.
-/

namespace Flowgraph

namespace Engine

/-! ## Histories -/

def performAll (e : Engine) (calls : List Call) : Engine :=
  calls.foldl perform e

def episodes (e : Engine) : List Call → List (Engine × Call)
  | [] => []
  | call :: rest => (e, call) :: episodes (e.perform call) rest

@[simp]
theorem performAll_cons (e : Engine) (call : Call) (rest : List Call) :
    e.performAll (call :: rest) = (e.perform call).performAll rest := rfl

@[simp]
theorem performAll_concat (e : Engine) (calls : List Call) (call : Call) :
    e.performAll (calls ++ [call]) = (e.performAll calls).perform call := by
  simp [performAll]

theorem episodes_concat (e : Engine) (calls : List Call) (call : Call) :
    e.episodes (calls ++ [call]) = e.episodes calls ++ [(e.performAll calls, call)] := by
  induction calls generalizing e with
  | nil => rfl
  | cons first rest ih => simp [episodes, performAll, ih (e.perform first)]

def loads (e : Engine) : Call → Bool
  | .prepare plan change => (e.prepare plan change).isOk
  | _ => false

def starts (e : Engine) : Call → Bool
  | .start => e.start.2.1
  | _ => false

def completes? (e : Engine) : Call → Option Nat
  | .cycle machine =>
    match (e.cycle machine).result with
    | .ok (some _) => some e.settings.bufferSize
    | _ => none
  | _ => none

/--
The buffer sizes in force in the cycles completed since a plan was last loaded
or the engine was last started.
-/
def completedSizes (e : Engine) (calls : List Call) : List Nat :=
  ((e.episodes calls).rtakeWhile fun now => !(now.1.loads now.2 || now.1.starts now.2)).filterMap
    fun now => now.1.completes? now.2

/-- A call that loads or starts begins a new count; any other goes on with the old one. -/
theorem completedSizes_concat (e : Engine) (calls : List Call) (call : Call) :
    e.completedSizes (calls ++ [call]) =
      if (e.performAll calls).loads call || (e.performAll calls).starts call then []
      else e.completedSizes calls ++ ((e.performAll calls).completes? call).toList := by
  unfold completedSizes
  rw [episodes_concat, List.rtakeWhile_concat]
  cases fresh : (e.performAll calls).loads call || (e.performAll calls).starts call with
  | true => simp
  | false =>
      cases done : (e.performAll calls).completes? call <;> simp [done]

theorem reachable_performAll {catalog : Catalog} {e : Engine} (reachable : Reachable catalog e)
    (calls : List Call) : Reachable catalog (e.performAll calls) := by
  induction calls using List.reverseRecOn with
  | nil => exact reachable
  | append_singleton calls call ih =>
      rw [performAll_concat]
      exact .call call ih

/-! ## What one call keeps -/

structure Lifecycle (sizes : List Nat) (e : Engine) : Prop where
  idle_iff : e.status = .idle ↔ e.plan = none
  published : e.outputs = [] ∨
    ∃ plan, e.plan = some plan ∧ Engine.published e.outputs = plan.orderIds
  cycles : e.cycles = sizes.length
  samples : e.samples = sizes.sum

variable {catalog : Catalog} {e : Engine} {sizes : List Nat}

theorem lifecycle_new (catalog : Catalog) : Lifecycle [] (new catalog) :=
  ⟨by simp [new], .inl rfl, rfl, rfl⟩

theorem Lifecycle.exists_plan (h : Lifecycle sizes e) (awake : e.status ≠ .idle) :
    ∃ plan, e.plan = some plan :=
  Option.ne_none_iff_exists'.mp (mt h.idle_iff.mpr awake)

theorem starts_iff : e.start.2.1 = true ↔ e.plan.isSome = true := by
  unfold start
  cases e.plan <;> simp

theorem loads_prepare (e : Engine) (plan : Graph.Plan) (change : Settings.Change) :
    e.loads (.prepare plan change) = (change.apply e.settings).isOk := by
  cases applied : change.apply e.settings <;>
    simp [loads, prepare, applied, Except.isOk, Except.toBool]

/-- A cycle that is complete counts; any other leaves the counts and puts out nothing. -/
theorem Lifecycle.cycle (h : Lifecycle sizes e) (consistent : Consistent catalog e)
    (machine : Machine) :
    Lifecycle (sizes ++ (e.completes? (.cycle machine)).toList) (e.cycle machine).engine := by
  rcases cycle_cases machine e with ⟨-, eq⟩ | ⟨plan, p, -, loaded, taken, eq⟩ |
    ⟨plan, p, i, running, loaded, -, eq⟩
  · simpa [completes?, eq] using h
  · have kept : e.status = .idle ↔ e.plan = none := h.idle_iff
    have keys : Engine.published p.outputs = plan.orderIds := by
      rw [published_takeSteps taken, consistent.steps_of_plan loaded, map_id_stepsOf]
    simp only [completes?, eq, Option.toList_some]
    refine ⟨kept, .inr ⟨plan, loaded, keys⟩, ?_, ?_⟩
    · simp [completed, h.cycles]
    · simp [completed, h.samples]
  · have none : e.completes? (.cycle machine) = none := by simp [completes?, eq]
    rw [none, eq, Option.toList_none, List.append_nil]
    cases i with
    | before fault => exact ⟨h.idle_iff, .inl rfl, h.cycles, h.samples⟩
    | inside step fault =>
        exact ⟨by simp [interrupted, stop, loaded], .inl rfl, h.cycles, h.samples⟩

/-- Every call keeps the state, the outputs and the counts in step with each other. -/
theorem Lifecycle.perform (h : Lifecycle sizes e) (consistent : Consistent catalog e)
    (call : Call) :
    Lifecycle (if e.loads call || e.starts call then []
      else sizes ++ (e.completes? call).toList) (e.perform call) := by
  cases call with
  | prepare plan change =>
      rw [loads_prepare, perform_prepare]
      cases change.apply e.settings with
      | error fault => simpa [starts, completes?, Except.isOk, Except.toBool] using h
      | ok settings =>
          have loaded : Lifecycle [] (e.load plan settings) :=
            ⟨by simp [load], .inl rfl, rfl, rfl⟩
          simpa [Except.isOk, Except.toBool] using loaded
  | start =>
      have begins : e.starts .start = e.plan.isSome := Bool.eq_iff_iff.mpr starts_iff
      rw [perform_start, begins]
      cases loaded : e.plan with
      | none => simpa [loads, completes?] using h
      | some plan =>
          have shown := h.published
          rw [loaded] at shown
          have started : Lifecycle []
              { e with records := [], cycles := 0, samples := 0, status := .running } :=
            ⟨by simp [loaded], by simpa [loaded] using shown, rfl, rfl⟩
          simpa [loads, loaded] using started
  | stop =>
      have stopped : Lifecycle sizes e.stop := by
        refine ⟨?_, h.published, h.cycles, h.samples⟩
        unfold stop
        cases e.plan <;> simp
      simpa [loads, starts, completes?, Engine.perform] using stopped
  | configure change =>
      rw [perform_configure]
      cases change.apply e.settings with
      | error fault => simpa [loads, starts, completes?] using h
      | ok settings =>
          have changed : Lifecycle sizes { e with settings := settings } :=
            ⟨h.idle_iff, h.published, h.cycles, h.samples⟩
          simpa [loads, starts, completes?] using changed
  | reset =>
      have dropped : Lifecycle sizes e.reset := ⟨by simp [reset], .inl rfl, h.cycles, h.samples⟩
      simpa [loads, starts, completes?, Engine.perform] using dropped
  | cycle machine => simpa [loads, starts] using h.cycle consistent machine
  | recordFor id =>
      have looked : Lifecycle sizes (e.perform (.recordFor id)) := by
        rw [perform_recordFor]
        exact ⟨h.idle_iff, h.published, h.cycles, h.samples⟩
      simpa [loads, starts, completes?] using looked

/-! ## What holds after any calls -/

theorem lifecycle_performAll (catalog : Catalog) (calls : List Call) :
    Lifecycle ((new catalog).completedSizes calls) ((new catalog).performAll calls) := by
  induction calls using List.reverseRecOn with
  | nil => exact lifecycle_new catalog
  | append_singleton calls call ih =>
      rw [performAll_concat, completedSizes_concat]
      exact ih.perform (reachable_performAll .new calls).consistent call

theorem Reachable.exists_lifecycle (h : Reachable catalog e) : ∃ sizes, Lifecycle sizes e := by
  induction h with
  | new => exact ⟨[], lifecycle_new catalog⟩
  | call call before ih =>
      obtain ⟨sizes, h⟩ := ih
      exact ⟨_, h.perform before.consistent call⟩

/--
After any calls, refused ones and interrupted cycles included: an engine is
idle exactly if it holds no plan, and starts exactly if it holds one; a cycle
hands out something or fails if the engine runs, and otherwise hands out
nothing and changes nothing; outputs are there for exactly the nodes of the
plan, or not at all; and the counts are those of the cycles completed since a
plan was last loaded or the engine was last started.
-/
theorem lifecycle (catalog : Catalog) (calls : List Call) :
    let e := (new catalog).performAll calls
    (e.status = .idle ↔ e.plan = none) ∧
    (e.start.2.1 = true ↔ e.plan.isSome = true) ∧
    (∀ machine, ((e.cycle machine).result = .ok none ↔ e.status ≠ .running) ∧
      (e.status ≠ .running → (e.cycle machine).engine = e)) ∧
    (e.outputs = [] ∨ ∃ plan, e.plan = some plan ∧ e.outputs.map (·.1) = plan.orderIds) ∧
    e.cycles = ((new catalog).completedSizes calls).length ∧
    e.samples = ((new catalog).completedSizes calls).sum := by
  intro e
  have h : Lifecycle ((new catalog).completedSizes calls) e := lifecycle_performAll catalog calls
  refine ⟨h.idle_iff, starts_iff, fun machine => ⟨?_, ?_⟩, h.published, h.cycles, h.samples⟩
  · constructor
    · intro nothing running
      obtain ⟨plan, loaded⟩ := h.exists_plan (by simp [running])
      rw [cycle_of_running machine running loaded] at nothing
      split at nothing <;> cases nothing
    · intro resting
      rw [cycle_of_idle machine (.inl resting)]
  · intro resting
    rw [cycle_of_idle machine (.inl resting)]

end Engine

end Flowgraph
