import Flowgraph.Proofs.Engine.Dataflow

/-!
# Sessions

A session loads a plan, starts the engine and runs cycles between which the
settings change.  Its cycles solve the dataflow equations one after another,
each from the records that the one before it left.
-/

namespace Flowgraph

namespace Engine

open Block Flowgraph.Graph

def complete (machine : Machine) (e : Engine) : Except Fault Engine :=
  match e.cycle machine with
  | ⟨_, .error fault, _⟩ => .error fault
  | ⟨e', .ok _, _⟩ => .ok e'

def goOn (machine : Machine) (e : Engine) : List Settings → Except Fault (List Engine)
  | [] => .ok []
  | s :: rest => do
    let e ← e.configure (.replace s)
    let e ← e.complete machine
    let later ← goOn machine e rest
    return e :: later

/-- Load a plan with some settings, start, and run a cycle under these and each of some others. -/
def session (machine : Machine) (e : Engine) (plan : Plan) (first : Settings)
    (rest : List Settings) : Except Fault (List Engine) := do
  let (e, _) ← e.prepare plan (.replace first)
  let e ← e.start.1.complete machine
  let later ← goOn machine e rest
  return e :: later

/-- Cycles that solve the equations of all nodes, the first one from some records. -/
def SolvedCycles (catalog : Catalog) (nodes : List Node) (edges : List Edge) (machine : Machine) :
    Records → List (Settings × Engine) → Prop
  | _, [] => True
  | kept, (s, e) :: rest =>
    (∀ n ∈ nodes, Solved catalog edges s machine kept e n) ∧
      SolvedCycles catalog nodes edges machine e.records rest

structure Running (catalog : Catalog) (plan : Plan) (e : Engine) : Prop where
  status : e.status = .running
  loaded : e.plan = some plan
  consistent : Consistent catalog e

variable {checker catalog : Catalog} {nodes : List Node} {edges : List Edge} {c : Compiled}
  {machine : Machine} {e e' : Engine}

/-- A cycle of an engine that runs solves the equations and leaves it running. -/
theorem Running.complete (compiled : compile checker nodes edges = .ok c)
    (running : Running catalog c.plan e) (ran : e.complete machine = .ok e') :
    (∀ n ∈ nodes, Solved catalog edges e.settings machine e.records e' n) ∧
      Running catalog c.plan e' := by
  obtain ⟨-, -, -, -, perm, -⟩ := of_compile_eq_ok compiled
  unfold Engine.complete at ran
  have same := samePlan_cycle machine e
  rcases cycle_cases machine e with ⟨idle, h⟩ | ⟨plan, p, -, -, -, h⟩ | ⟨plan, p, i, -, -, -, h⟩
  · rcases idle with stopped | empty
    · exact absurd running.status stopped
    · cases running.loaded.symm.trans empty
  · obtain ⟨p', eq, -, -, solved⟩ := ran_of_cycle compiled running.consistent running.loaded h
    rw [h] at ran same
    cases ran
    refine ⟨?_, running.status, same.plan.trans running.loaded,
      running.consistent.samePlan same⟩
    intro n mem
    have listed : n ∈ c.plan.order := perm.mem_iff.mpr mem
    rw [eq]
    exact solved_of_ran compiled listed (solved n listed)
  · rw [h] at ran
    cases ran

theorem solvedCycles_of_goOn (compiled : compile checker nodes edges = .ok c)
    (running : Running catalog c.plan e) {rest : List Settings} {engines : List Engine}
    (ran : goOn machine e rest = .ok engines) :
    engines.length = rest.length ∧
      SolvedCycles catalog nodes edges machine e.records (rest.zip engines) := by
  induction rest generalizing e engines with
  | nil =>
      cases ran
      exact ⟨rfl, trivial⟩
  | cons s rest ih =>
      unfold goOn at ran
      obtain ⟨changed, configured, cycled⟩ := of_bind_eq_ok ran
      obtain ⟨after, completed, followed⟩ := of_bind_eq_ok cycled
      obtain ⟨others, later, collected⟩ := of_bind_eq_ok followed
      cases configured
      cases collected
      have running' : Running catalog c.plan { e with settings := s } :=
        ⟨running.status, running.loaded, running.consistent.samePlan ⟨rfl, rfl, rfl⟩⟩
      obtain ⟨solved, running''⟩ := running'.complete compiled completed
      obtain ⟨length, solvedLater⟩ := ih running'' later
      exact ⟨by simp [length], solved, solvedLater⟩

theorem running_start (based : e.catalog = catalog) (plan : Plan) (settings : Settings) :
    Running catalog plan (e.load plan settings).start.1 :=
  ⟨rfl, rfl, based, by rw [← based]; rfl⟩

theorem running_perform_start {plan : Plan} (consistent : Consistent catalog e)
    (loaded : e.plan = some plan) : Running catalog plan (e.perform .start) := by
  rw [perform_start_of_plan loaded]
  exact ⟨rfl, loaded, consistent.samePlan ⟨rfl, rfl, rfl⟩⟩

theorem solvedCycles_of_session (compiled : compile checker nodes edges = .ok c)
    (based : e.catalog = catalog) {first : Settings} {rest : List Settings}
    {engines : List Engine} (ran : session machine e c.plan first rest = .ok engines) :
    engines.length = (first :: rest).length ∧
      SolvedCycles catalog nodes edges machine [] ((first :: rest).zip engines) := by
  unfold session at ran
  obtain ⟨loaded, prepared, cycled⟩ := of_bind_eq_ok ran
  obtain ⟨after, completed, followed⟩ := of_bind_eq_ok cycled
  obtain ⟨others, later, collected⟩ := of_bind_eq_ok followed
  cases prepared
  cases collected
  obtain ⟨solved, running⟩ := (running_start based c.plan first).complete compiled completed
  obtain ⟨length, solvedLater⟩ := solvedCycles_of_goOn compiled running later
  exact ⟨by simp [length], solved, solvedLater⟩

end Engine

end Flowgraph
