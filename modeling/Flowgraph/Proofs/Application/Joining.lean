import Flowgraph.Application
import Flowgraph.Proofs.Engine.Forms
import Flowgraph.Proofs.Engine.Ticking

/-!
# Joining what is collected of a sink

Each complete cycle hands out one output for every sink, always of the same
form, so joining what is collected of a sink puts these outputs one after
another, and the outputs of the first cycles make up the beginning.
-/

namespace Flowgraph

open Block

/-! ## Signals of several cycles -/

namespace Signal

/-- A signal made of several others of one form, one after another. -/
inductive Joined : List Signal → Signal → Prop where
  | real (parts : List (List Float)) : Joined (parts.map line) (line parts.flatten)
  | complex (parts : List (List (Point Float))) :
      Joined (parts.map pointLine) (pointLine parts.flatten)
  | frames (parts : List (List (Frame Float))) :
      Joined (parts.map .frames) (.frames parts.flatten)

inductive Initial : Signal → Signal → Prop where
  | real {first all : List Float} (initial : first <+: all) : Initial (line first) (line all)
  | complex {first all : List (Point Float)} (initial : first <+: all) :
      Initial (pointLine first) (pointLine all)
  | frames {first all : List (Frame Float)} (initial : first <+: all) :
      Initial (.frames first) (.frames all)

theorem realBuffers?_map_line (parts : List (List Float)) :
    realBuffers? (parts.map line) = some parts := by
  induction parts with
  | nil => rfl
  | cons part rest ih => simp [realBuffers?, line, ← ih]

theorem pointBuffers?_map_pointLine (parts : List (List (Point Float))) :
    pointBuffers? (parts.map pointLine) = some parts := by
  induction parts with
  | nil => rfl
  | cons part rest ih => simp [pointBuffers?, pointLine, ← ih]

theorem flatMap_framesOf (parts : List (List (Frame Float))) :
    (parts.map .frames).flatMap framesOf = parts.flatten := by
  induction parts with
  | nil => rfl
  | cons part rest ih => simp [framesOf, ← ih]

theorem join_map_line (parts : List (List Float)) : join (parts.map line) = line parts.flatten := by
  rw [join, realBuffers?_map_line]
  rfl

theorem join_map_pointLine {parts : List (List (Point Float))} (some : parts ≠ []) :
    join (parts.map pointLine) = pointLine parts.flatten := by
  have others : realBuffers? (parts.map pointLine) = none := by
    cases parts with
    | nil => exact absurd rfl some
    | cons part rest => rfl
  rw [join, others, pointBuffers?_map_pointLine]
  rfl

theorem join_map_frames {parts : List (List (Frame Float))} (some : parts ≠ []) :
    join (parts.map .frames) = .frames parts.flatten := by
  cases parts with
  | nil => exact absurd rfl some
  | cons part rest => exact congrArg frames (flatMap_framesOf (part :: rest))

section

variable {α : Type} {f : List α → Signal} {signals : List Signal} {n : ℕ}

theorem joined_take_of_map
    (join_map : ∀ {parts : List (List α)}, parts ≠ [] → join (parts.map f) = f parts.flatten)
    (joined : ∀ parts : List (List α), Joined (parts.map f) (f parts.flatten))
    (initial : ∀ {first all}, first <+: all → Initial (f first) (f all))
    (made : ∀ s ∈ signals, s ∈ Set.range f) (positive : 1 ≤ n) (some : signals ≠ []) :
    Joined signals (join signals) ∧ Joined (signals.take n) (join (signals.take n)) ∧
      (join (signals.take n)).Initial (join signals) := by
  obtain ⟨parts, rfl⟩ : signals ∈ Set.range (List.map f) := by
    rw [Set.range_list_map]
    exact made
  have parted : parts ≠ [] := mt List.map_eq_nil_iff.mpr some
  have begun : parts.take n ≠ [] := by
    rw [ne_eq, List.take_eq_nil_iff]
    rintro (rfl | none)
    · omega
    · exact parted none
  rw [← List.map_take, join_map parted, join_map begun]
  refine ⟨joined parts, joined _, initial ⟨(parts.drop n).flatten, ?_⟩⟩
  rw [← List.flatten_append, List.take_append_drop]

/-- Signals of one form are joined in their order, and the first of them to the beginning. -/
theorem joined_take {form : Form} (has : ∀ s ∈ signals, s.Has form) (positive : 1 ≤ n)
    (some : signals ≠ []) :
    Joined signals (join signals) ∧ Joined (signals.take n) (join (signals.take n)) ∧
      (join (signals.take n)).Initial (join signals) := by
  cases form with
  | real =>
      refine joined_take_of_map (fun _ => join_map_line _) .real .real (fun s mem => ?_) positive
        some
      cases has s mem with
      | real samples => exact ⟨samples, rfl⟩
  | complex =>
      refine joined_take_of_map join_map_pointLine .complex .complex (fun s mem => ?_) positive some
      cases has s mem with
      | complex points => exact ⟨points, rfl⟩
  | frames =>
      refine joined_take_of_map join_map_frames .frames .frames (fun s mem => ?_) positive some
      cases has s mem with
      | frames frames => exact ⟨frames, rfl⟩

end

end Signal

/-! ## What is collected of a sink -/

namespace Engine

open Flowgraph.Graph

variable {nodes : List Node} {edges : List Edge} {c : Compiled} {machine : Machine} {e e' : Engine}

theorem filter_sinkOutputs {plan : Plan} (unique : (plan.sinks.map (·.id)).Nodup) {s : Node}
    (mem : s ∈ plan.sinks) {outputs : List (String × Signal)} {data : Signal}
    (found : outputs.lookup s.id = some data) :
    ((sinkOutputs plan outputs).filter fun o => o.node.id = s.id).map (·.data) = [data] := by
  unfold sinkOutputs
  generalize plan.sinks = sinks at unique mem
  induction sinks with
  | nil => cases mem
  | cons n rest ih =>
      obtain ⟨absent, distinct⟩ := List.nodup_cons.mp unique
      rcases List.mem_cons.mp mem with rfl | mem
      · have others : ((rest.filterMap fun n => (outputs.lookup n.id).map fun data =>
            (⟨n, data⟩ : SinkOutput)).filter fun o => o.node.id = s.id) = [] := by
          refine List.filter_eq_nil_iff.mpr fun o listed same => ?_
          obtain ⟨n, mem, there⟩ := List.mem_filterMap.mp listed
          obtain ⟨data, -, rfl⟩ := Option.map_eq_some_iff.mp there
          rw [decide_eq_true_eq] at same
          exact absent (List.mem_map.mpr ⟨n, mem, same⟩)
        rw [List.filterMap_cons_some (by rw [found]; rfl), List.filter_cons_of_pos (by simp),
          others]
        rfl
      · have other : n.id ≠ s.id := fun same => absent (List.mem_map.mpr ⟨s, mem, same.symm⟩)
        cases there : outputs.lookup n.id with
        | none => rw [List.filterMap_cons_none (by rw [there]; rfl), ih distinct mem]
        | some more =>
            rw [List.filterMap_cons_some (by rw [there]; rfl),
              List.filter_cons_of_neg (by simpa using other), ih distinct mem]

theorem nodup_sinks (compiled : compile .builtin nodes edges = .ok c) :
    (c.plan.sinks.map (·.id)).Nodup := by
  obtain ⟨-, -, -, exact, -⟩ := of_compile_eq_ok compiled
  have sublist : c.plan.sinks.Sublist c.plan.order := by
    rw [congrArg Plan.sinks exact]
    exact List.filter_sublist
  exact (nodup_orderIds compiled).sublist (sublist.map _)

theorem collected_singleton (compiled : compile .builtin nodes edges = .ok c)
    (consistent : Consistent .builtin e) (loaded : e.plan = some c.plan) {s : Node}
    (sink : s ∈ c.plan.sinks) {outs : List SinkOutput} {notices : List Notice}
    (complete : e.cycle machine = ⟨e', .ok (some outs), notices⟩) {data : Signal}
    (output : e'.output? s.id = some data) : Application.collected s.id [outs] = [data] := by
  obtain ⟨p, rfl, rfl, -, -⟩ := ran_of_cycle compiled consistent loaded complete
  rw [Application.collected, List.flatMap_singleton]
  exact filter_sinkOutputs (nodup_sinks compiled) sink output

/-- What is collected of a sink in complete cycles are the outputs of its node, all of one form. -/
theorem collected_of_yields (compiled : compile .builtin nodes edges = .ok c) {s : Node}
    (sink : s ∈ c.plan.sinks) {form : Form} (formed : Gives c.plan s form)
    {cycles : List (List SinkOutput)} (reachable : Reachable .builtin e)
    (loaded : e.plan = some c.plan) (yields : Yields machine e cycles) :
    (Application.collected s.id cycles).length = cycles.length ∧
      (∀ k < cycles.length,
        (e.performAll (List.replicate (k + 1) (.cycle machine))).output? s.id =
          (Application.collected s.id cycles)[k]?) ∧
      ∀ piece ∈ Application.collected s.id cycles, piece.Has form := by
  induction cycles generalizing e with
  | nil => simp [Application.collected]
  | cons outs more ih =>
      obtain ⟨complete, later⟩ := yields
      have next : Reachable .builtin (e.cycle machine).engine := reachable.call (.cycle machine)
      have kept := (samePlan_cycle machine e).plan.trans loaded
      obtain ⟨length, outputs, forms⟩ := ih next kept later
      rcases cycled : e.cycle machine with ⟨after, result, notices⟩
      rw [cycled] at complete outputs
      cases complete
      obtain ⟨signal, output, has⟩ := formed reachable loaded cycled
      have first := collected_singleton compiled reachable.consistent loaded sink cycled output
      have split : Application.collected s.id (outs :: more) =
          signal :: Application.collected s.id more := by
        rw [← List.singleton_append, Application.collected, List.flatMap_append]
        exact congrArg (· ++ Application.collected s.id more) first
      rw [split]
      refine ⟨by simp [length], ?_, List.forall_mem_cons.mpr ⟨has, forms⟩⟩
      intro k inside
      rw [List.replicate_succ, performAll_cons, perform_cycle, cycled]
      cases k with
      | zero => exact output
      | succ k => exact outputs k (Nat.lt_of_succ_lt_succ inside)

end Engine

end Flowgraph
