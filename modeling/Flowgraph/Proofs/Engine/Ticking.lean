import Flowgraph.Engine.Ticker
import Flowgraph.Proofs.Engine.Lifecycle
import Flowgraph.Proofs.Engine.Session
import Flowgraph.Proofs.Engine.Transcript

/-!
# Cycles that are collected

A ticker that collects the outputs of all cycles gets through exactly if each of
the cycles is complete, and then it has collected what they hand out.  So a
longer run begins with a shorter one, and engines that are alike give the same.
-/

namespace Flowgraph

namespace Engine

open Flowgraph.Graph

variable {catalog : Catalog} {plan : Plan} {machine : Machine} {e e' : Engine}
  {cycles seen : List (List SinkOutput)}

/-- The next cycles of an engine are complete and hand out some outputs, one after another. -/
def Yields (machine : Machine) : Engine → List (List SinkOutput) → Prop
  | _, [] => True
  | e, outs :: more =>
    (e.cycle machine).result = .ok (some outs) ∧ Yields machine (e.cycle machine).engine more

theorem Yields.take (h : Yields machine e cycles) (n : ℕ) : Yields machine e (cycles.take n) := by
  induction cycles generalizing e n with
  | nil => simpa using h
  | cons outs more ih =>
      cases n with
      | zero => trivial
      | succ n => exact ⟨h.1, ih h.2 n⟩

theorem Alike.yields (alike : Alike e e') (h : Yields machine e cycles) :
    Yields machine e' cycles := by
  induction cycles generalizing e e' with
  | nil => trivial
  | cons outs more ih =>
      obtain ⟨result, -, after, -⟩ := alike.cycle machine
      exact ⟨result.trans h.1, ih after h.2⟩

/-! ## Engines that run -/

/-- An engine that runs either fails in a cycle or completes it and goes on running. -/
theorem Running.cycle (running : Running catalog plan e) (machine : Machine) :
    (∃ fault, (e.cycle machine).result = .error fault) ∨
    ∃ outs, (e.cycle machine).result = .ok (some outs) ∧
      Running catalog plan (e.cycle machine).engine := by
  have same := samePlan_cycle machine e
  rcases cycle_cases machine e with ⟨idle, -⟩ | ⟨_, p, -, -, -, h⟩ | ⟨_, p, i, -, -, -, h⟩
  · rcases idle with stopped | empty
    · exact absurd running.status stopped
    · cases running.loaded.symm.trans empty
  · rw [h] at same ⊢
    exact .inr ⟨_, rfl, running.status, same.plan.trans running.loaded,
      running.consistent.samePlan same⟩
  · rw [h]
    exact .inl ⟨_, rfl⟩

/-- Two engines that hold one plan under the same settings start alike. -/
theorem alike_starts (consistent : Consistent catalog e) (consistent' : Consistent catalog e')
    (loaded : e.plan = some plan) (loaded' : e'.plan = some plan)
    (settings : e'.settings = e.settings) : Alike (e.perform .start) (e'.perform .start) := by
  rw [perform_start_of_plan loaded, perform_start_of_plan loaded']
  have catalogs := consistent'.catalog_eq.trans consistent.catalog_eq.symm
  have steps := (consistent'.steps_of_plan loaded').trans (consistent.steps_of_plan loaded).symm
  exact ⟨catalogs, settings, loaded'.trans loaded.symm, steps, rfl, rfl, rfl, fun _ => rfl⟩

/-! ## The ticker -/

open Ticker

theorem ticks_of_complete {after : Engine} {outs : List SinkOutput} {notices : List Notice}
    (cycled : e.cycle machine = ⟨after, .ok (some outs), notices⟩) (n index : ℕ) :
    ticks machine collector (n + 1) index e seen =
      { ticks machine collector n (index + 1) after (outs :: seen) with
        notices := notices ++
          (ticks machine collector n (index + 1) after (outs :: seen)).notices } := by
  simp only [ticks, collector, Bool.false_eq_true, if_false, cycled]

theorem ticks_of_failed {after : Engine} {fault : Fault} {notices : List Notice}
    (cycled : e.cycle machine = ⟨after, .error fault, notices⟩) (n index : ℕ) :
    ticks machine collector (n + 1) index e seen = ⟨after, seen, index, some fault, notices⟩ := by
  simp only [ticks, collector, Bool.false_eq_true, if_false, cycled]

theorem ticks_of_nothing {after : Engine} {notices : List Notice}
    (cycled : e.cycle machine = ⟨after, .ok none, notices⟩) (n index : ℕ) :
    ticks machine collector (n + 1) index e seen = ⟨after, seen, index, none, notices⟩ := by
  simp only [ticks, collector, Bool.false_eq_true, if_false, cycled]

theorem ticks_of_yields (h : Yields machine e cycles) (index : ℕ) (seen : List (List SinkOutput)) :
    (ticks machine collector cycles.length index e seen).fault = none ∧
      (ticks machine collector cycles.length index e seen).host = cycles.reverse ++ seen := by
  induction cycles generalizing e index seen with
  | nil => exact ⟨rfl, rfl⟩
  | cons outs more ih =>
      obtain ⟨complete, later⟩ := h
      rcases cycled : e.cycle machine with ⟨after, result, notices⟩
      rw [cycled] at complete later
      cases complete
      obtain ⟨through, collected⟩ := ih later (index + 1) (outs :: seen)
      rw [List.length_cons, ticks_of_complete cycled]
      exact ⟨through, by simpa using collected⟩

/-- A ticker that gets through with an engine that runs has collected complete cycles. -/
theorem exists_yields (running : Running catalog plan e) {n index : ℕ}
    (through : (ticks machine collector n index e seen).fault = none) :
    ∃ cycles, cycles.length = n ∧ Yields machine e cycles := by
  induction n generalizing e index seen with
  | zero => exact ⟨[], rfl, trivial⟩
  | succ n ih =>
      have ahead := running.cycle machine
      rcases cycled : e.cycle machine with ⟨after, result, notices⟩
      rw [cycled] at ahead
      rcases ahead with ⟨fault, rfl⟩ | ⟨outs, rfl, running'⟩
      · rw [ticks_of_failed cycled] at through
        cases through
      · rw [ticks_of_complete cycled] at through
        obtain ⟨cycles, length, later⟩ := ih running' through
        refine ⟨outs :: cycles, by simp [length], ?_⟩
        rw [Yields, cycled]
        exact ⟨rfl, later⟩

/-- A collecting ticker does nothing to an engine but run cycles. -/
theorem exists_performAll_ticks (machine : Machine) (n index : ℕ) (e : Engine)
    (seen : List (List SinkOutput)) :
    ∃ k, (ticks machine collector n index e seen).engine =
      e.performAll (List.replicate k (.cycle machine)) := by
  induction n generalizing e index seen with
  | zero => exact ⟨0, rfl⟩
  | succ n ih =>
      have once : (e.cycle machine).engine = e.performAll (List.replicate 1 (.cycle machine)) := rfl
      rcases cycled : e.cycle machine with ⟨after, fault | none | outs, notices⟩
      · rw [ticks_of_failed cycled]
        exact ⟨1, by rw [← once, cycled]⟩
      · rw [ticks_of_nothing cycled]
        exact ⟨1, by rw [← once, cycled]⟩
      · obtain ⟨k, rest⟩ := ih (index + 1) after (outs :: seen)
        refine ⟨k + 1, ?_⟩
        rw [ticks_of_complete cycled, rest, List.replicate_succ, performAll_cons, perform_cycle,
          cycled]

end Engine

end Flowgraph
