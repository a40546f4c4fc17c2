import Flowgraph.Engine.Cycle

/-!
# What a host can do with an engine

Every engine that a host can hold comes from a new one by calls.  No call but
loading and dropping a plan touches the steps, so the steps of such an engine
are always those of its plan.
-/

namespace Flowgraph

namespace Engine

/-- A call of a host. -/
inductive Call where
  | prepare (plan : Graph.Plan) (change : Settings.Change)
  | start
  | stop
  | configure (change : Settings.Change)
  | reset
  | cycle (machine : Machine)
  | recordFor (id : String)

/-- The engine after a call; a call that is refused leaves it as it was. -/
def perform (e : Engine) : Call → Engine
  | .prepare plan change =>
    match e.prepare plan change with
    | .error _ => e
    | .ok (loaded, _) => loaded
  | .start => e.start.1
  | .stop => e.stop
  | .configure change =>
    match e.configure change with
    | .error _ => e
    | .ok changed => changed
  | .reset => e.reset
  | .cycle machine => (e.cycle machine).engine
  | .recordFor id => (e.recordFor id).1

/-- The engines that come from a new one by calls. -/
inductive Reachable (catalog : Catalog) : Engine → Prop where
  | new : Reachable catalog (.new catalog)
  | call {e : Engine} (call : Call) : Reachable catalog e → Reachable catalog (e.perform call)

/-! ## What a call leaves alone -/

variable {e e' : Engine}

structure SamePlan (e e' : Engine) : Prop where
  catalog : e'.catalog = e.catalog
  plan : e'.plan = e.plan
  steps : e'.steps = e.steps

theorem SamePlan.refl (e : Engine) : SamePlan e e := ⟨rfl, rfl, rfl⟩

theorem SamePlan.trans {e'' : Engine} (h : SamePlan e e') (h' : SamePlan e' e'') :
    SamePlan e e'' :=
  ⟨h'.catalog.trans h.catalog, h'.plan.trans h.plan, h'.steps.trans h.steps⟩

theorem samePlan_start (e : Engine) : SamePlan e e.start.1 := by
  unfold start
  split
  · exact .refl e
  · exact ⟨rfl, rfl, rfl⟩

theorem samePlan_configure {change : Settings.Change} (h : e.configure change = .ok e') :
    SamePlan e e' := by
  unfold configure at h
  cases applied : change.apply e.settings with
  | error fault =>
      rw [applied] at h
      cases h
  | ok settings =>
      rw [applied] at h
      cases h
      exact ⟨rfl, rfl, rfl⟩

theorem samePlan_interrupted (e : Engine) (records : Records) (i : Interruption) :
    SamePlan e (e.interrupted records i) := by
  cases i <;> exact ⟨rfl, rfl, rfl⟩

/-- A cycle that takes its steps ends in one of three ways. -/
theorem cycle_cases (machine : Machine) (e : Engine) :
    ((e.status ≠ .running ∨ e.plan = none) ∧ e.cycle machine = ⟨e, .ok none, []⟩) ∨
    (∃ plan p, e.status = .running ∧ e.plan = some plan ∧
      takeSteps e.settings machine ⟨[], e.records⟩ e.steps = (p, none) ∧
      e.cycle machine = ⟨e.completed p, .ok (some (sinkOutputs plan p.outputs)), []⟩) ∨
    (∃ plan p i, e.status = .running ∧ e.plan = some plan ∧
      takeSteps e.settings machine ⟨[], e.records⟩ e.steps = (p, some i) ∧
      e.cycle machine = ⟨e.interrupted p.records i, .error i.fault, interruptionNotices i⟩) := by
  unfold cycle
  cases status : e.status with
  | idle => exact .inl ⟨.inl (by simp), by simp⟩
  | ready => exact .inl ⟨.inl (by simp), by simp⟩
  | running =>
      cases loaded : e.plan with
      | none => exact .inl ⟨.inr rfl, rfl⟩
      | some plan =>
          rcases taken : takeSteps e.settings machine ⟨[], e.records⟩ e.steps with ⟨p, _ | i⟩
          · exact .inr (.inl ⟨plan, p, rfl, rfl, rfl, rfl⟩)
          · exact .inr (.inr ⟨plan, p, i, rfl, rfl, rfl, rfl⟩)

theorem cycle_of_idle (machine : Machine) (idle : e.status ≠ .running ∨ e.plan = none) :
    e.cycle machine = ⟨e, .ok none, []⟩ := by
  rcases cycle_cases machine e with ⟨-, h⟩ | ⟨_, _, runs, loaded, -⟩ | ⟨_, _, _, runs, loaded, -⟩
  · exact h
  · grind
  · grind

theorem cycle_of_running (machine : Machine) {plan : Graph.Plan} (runs : e.status = .running)
    (loaded : e.plan = some plan) :
    e.cycle machine =
      match takeSteps e.settings machine ⟨[], e.records⟩ e.steps with
      | (p, none) => ⟨e.completed p, .ok (some (sinkOutputs plan p.outputs)), []⟩
      | (p, some i) => ⟨e.interrupted p.records i, .error i.fault, interruptionNotices i⟩ := by
  rcases cycle_cases machine e with
    ⟨idle, -⟩ | ⟨_, p, -, held, taken, h⟩ | ⟨_, p, i, -, held, taken, h⟩
  · grind
  · cases loaded.symm.trans held
    simp only [h, taken]
  · cases loaded.symm.trans held
    simp only [h, taken]

theorem samePlan_cycle (machine : Machine) (e : Engine) : SamePlan e (e.cycle machine).engine := by
  rcases cycle_cases machine e with ⟨-, h⟩ | ⟨plan, p, -, -, -, h⟩ | ⟨plan, p, i, -, -, -, h⟩
  · rw [h]
    exact .refl e
  · rw [h]
    exact ⟨rfl, rfl, rfl⟩
  · rw [h]
    exact samePlan_interrupted e p.records i

theorem settings_cycle (machine : Machine) (e : Engine) :
    (e.cycle machine).engine.settings = e.settings := by
  rcases cycle_cases machine e with ⟨-, h⟩ | ⟨_, _, -, -, -, h⟩ | ⟨_, _, i, -, -, -, h⟩
  · rw [h]
  · rw [h]
    rfl
  · rw [h]
    cases i <;> rfl

theorem samePlan_recordFor (e : Engine) (id : String) : SamePlan e (e.recordFor id).1 := by
  unfold recordFor
  cases e.records.lookup id with
  | none => exact ⟨rfl, rfl, rfl⟩
  | some record => exact .refl e

/-! ## What a call does -/

@[simp]
theorem perform_cycle (e : Engine) (machine : Machine) :
    e.perform (.cycle machine) = (e.cycle machine).engine := rfl

theorem perform_prepare (e : Engine) (plan : Graph.Plan) (change : Settings.Change) :
    e.perform (.prepare plan change) =
      match change.apply e.settings with
      | .error _ => e
      | .ok settings => e.load plan settings := by
  unfold Engine.perform Engine.prepare
  cases applied : change.apply e.settings <;> simp only [applied]

theorem perform_configure (e : Engine) (change : Settings.Change) :
    e.perform (.configure change) =
      match change.apply e.settings with
      | .error _ => e
      | .ok settings => { e with settings := settings } := by
  unfold Engine.perform Engine.configure
  cases applied : change.apply e.settings <;> simp only [applied]

theorem perform_start (e : Engine) :
    e.perform .start =
      if e.plan.isSome then { e with records := [], cycles := 0, samples := 0, status := .running }
      else e := by
  unfold Engine.perform Engine.start
  cases e.plan <;> simp

theorem perform_start_of_plan {plan : Graph.Plan} (loaded : e.plan = some plan) :
    e.perform .start = { e with records := [], cycles := 0, samples := 0, status := .running } := by
  rw [perform_start, loaded, Option.isSome_some, if_pos rfl]

theorem perform_recordFor (e : Engine) (id : String) :
    e.perform (.recordFor id) =
      { e with records := if (e.records.lookup id).isSome then e.records
                          else e.records ++ [(id, none)] } := by
  unfold Engine.perform Engine.recordFor
  cases found : e.records.lookup id <;> simp [found]

/-! ## The steps belong to the plan -/

/-- An engine over a catalog whose steps are those of its plan. -/
structure Consistent (catalog : Catalog) (e : Engine) : Prop where
  catalog_eq : e.catalog = catalog
  steps_eq : e.steps = match e.plan with
    | none => []
    | some plan => stepsOf catalog plan

variable {catalog : Catalog}

theorem Consistent.steps_of_plan (h : Consistent catalog e) {plan : Graph.Plan}
    (loaded : e.plan = some plan) : e.steps = stepsOf catalog plan := by
  rw [h.steps_eq, loaded]

theorem Consistent.samePlan (h : Consistent catalog e) (same : SamePlan e e') :
    Consistent catalog e' := by
  constructor
  · rw [same.catalog, h.catalog_eq]
  · rw [same.steps, same.plan, h.steps_eq]

theorem Consistent.prepare (h : Consistent catalog e) {plan : Graph.Plan}
    {change : Settings.Change} {notices : List Notice}
    (prepared : e.prepare plan change = .ok (e', notices)) : Consistent catalog e' := by
  unfold Engine.prepare at prepared
  cases applied : change.apply e.settings with
  | error fault =>
      rw [applied] at prepared
      cases prepared
  | ok settings =>
      rw [applied] at prepared
      cases prepared
      refine ⟨h.catalog_eq, ?_⟩
      simp only [load, h.catalog_eq]

theorem Consistent.perform (h : Consistent catalog e) (call : Call) :
    Consistent catalog (e.perform call) := by
  cases call with
  | prepare plan change =>
      cases prepared : e.prepare plan change with
      | error fault => simpa only [Engine.perform, prepared] using h
      | ok loaded => simpa only [Engine.perform, prepared] using h.prepare prepared
  | start => exact h.samePlan (samePlan_start e)
  | stop => exact h.samePlan ⟨rfl, rfl, rfl⟩
  | configure change =>
      cases changed : e.configure change with
      | error fault => simpa only [Engine.perform, changed] using h
      | ok e' =>
          simpa only [Engine.perform, changed] using h.samePlan (samePlan_configure changed)
  | reset => exact ⟨h.catalog_eq, rfl⟩
  | cycle machine => exact h.samePlan (samePlan_cycle machine e)
  | recordFor id => exact h.samePlan (samePlan_recordFor e id)

theorem Reachable.consistent (h : Reachable catalog e) : Consistent catalog e := by
  induction h with
  | new => exact ⟨rfl, rfl⟩
  | call call _ ih => exact ih.perform call

end Engine

end Flowgraph
