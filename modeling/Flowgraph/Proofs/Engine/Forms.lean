import Flowgraph.Proofs.Engine.SignalTypes

/-!
# Every node gives outputs of one form

What a node puts out is either real samples along one axis, points along one
axis, or frames, and it is the same in all cycles: blocks that declare no output
give frames or pass on what they are given.
-/

namespace Flowgraph

open Block

inductive Form where
  | real
  | complex
  | frames

inductive Signal.Has : Form → Signal → Prop where
  | real (samples : List Float) : Has .real (line samples)
  | complex (points : List (Point Float)) : Has .complex (pointLine points)
  | frames (frames : List (Frame Float)) : Has .frames (.frames frames)

def SignalType.form : SignalType → Form
  | real => .real
  | complex => .complex

theorem Signal.Fits.has {allowed : ℕ → Prop} {type : SignalType} {s : Signal}
    (fits : s.Fits allowed type) : s.Has type.form := by
  cases fits with
  | real shape _ =>
      rw [Grid.eq_line_of_shape shape]
      exact .real _
  | complex shape _ =>
      rw [Grid.eq_line_of_shape shape]
      exact .complex _

/-- A built-in block without a declared output gives frames, or what it is given. -/
theorem Catalog.process_of_no_output {d : Descriptor} (mem : d ∈ Builtin.blocks)
    (silent : d.signals.output = .ok none) :
    d.process = slidingTransform ∨
      d.process = passFirst ∧ ∃ type, d.signals.input = .ok (some type) := by
  simp only [Builtin.blocks, Builtin.filters, Builtin.generators, Builtin.analyzers,
    Builtin.arithmetic, Builtin.displays, List.mem_append, List.mem_cons, List.not_mem_nil,
    or_false, or_assoc] at mem
  rcases mem with rfl | rfl | rfl | rfl | rfl | rfl | rfl | rfl | rfl | rfl | rfl | rfl | rfl |
    rfl | rfl | rfl | rfl | rfl | rfl | rfl <;> first
    | (cases silent; done)
    | exact .inl rfl
    | exact .inr ⟨rfl, _, rfl⟩

theorem Block.has_slidingTransform {ctx : Context} {record : Option Record} {s : Signal}
    (done : (slidingTransform ctx record).2 = .ok s) : s.Has .frames := by
  simp only [slidingTransform, stateless] at done
  split at done
  · cases done
    exact .frames []
  · obtain ⟨window, -, done⟩ := of_bind_eq_ok done
    obtain ⟨overlap, -, done⟩ := of_bind_eq_ok done
    obtain ⟨size, -, done⟩ := of_bind_eq_ok done
    obtain ⟨buffer, -, done⟩ := of_bind_eq_ok done
    obtain ⟨frames, -, done⟩ := of_bind_eq_ok done
    cases done
    exact .frames frames

namespace Engine

open Flowgraph.Graph

variable {nodes : List Node} {edges : List Edge} {c : Compiled} {n : Node}

/-- In every complete cycle of an engine that holds a plan, a node gives an output of one form. -/
def Gives (plan : Plan) (n : Node) (form : Form) : Prop :=
  ∀ {e e' : Engine} {machine : Machine} {outs : List SinkOutput} {notices : List Notice},
    Reachable .builtin e → e.plan = some plan →
    e.cycle machine = ⟨e', .ok (some outs), notices⟩ →
    ∃ s, e'.output? n.id = some s ∧ s.Has form

/-- A node that passes its first input on gives what feeds it, or silence if nothing does. -/
theorem fits_of_passFirst (allowed : ℕ → Prop) {settings : Settings} {machine : Machine}
    {kept : Records} {after : Engine} {type : SignalType} (length : allowed settings.bufferSize)
    (passes : processOf .builtin n = passFirst)
    (solved : Solved .builtin edges settings machine kept after n)
    (taken : ∃ signals : List Signal,
      (predecessors edges n.id).map (after.output? ·) = signals.map some ∧
        ∀ s ∈ signals, s.Fits allowed type) :
    ∃ s, after.output? n.id = some s ∧
      s.Fits allowed (if predecessors edges n.id = [] then .real else type) := by
  obtain ⟨signals, old, new, signal, read, -, processed, output, -⟩ := solved
  obtain ⟨signals', read', fits⟩ := taken
  have same : signals' = signals :=
    List.map_injective_iff.mpr (Option.some_injective _) (read'.symm.trans read)
  subst same
  refine ⟨signal, output, ?_⟩
  rw [passes] at processed
  cases signals' with
  | nil =>
      have none : predecessors edges n.id = [] := by simpa using read
      have quiet : Signal.silence machine.memory (.int settings.bufferSize) = .ok signal :=
        congrArg (·.2) processed
      rw [if_pos none]
      exact fits_silence length quiet
  | cons first rest =>
      have some : predecessors edges n.id ≠ [] := by
        intro none
        simp [none] at read
      have passed : first = signal := by
        have result := congrArg (·.2) processed
        simpa [passFirst, stateless, Context.first] using result
      rw [if_neg some, ← passed]
      exact fits first List.mem_cons_self

theorem has_of_slidingTransform {settings : Settings} {machine : Machine} {kept : Records}
    {after : Engine} (slides : processOf .builtin n = slidingTransform)
    (solved : Solved .builtin edges settings machine kept after n) :
    ∃ s, after.output? n.id = some s ∧ s.Has .frames := by
  obtain ⟨_, _, _, s, -, -, processed, output, -⟩ := solved
  rw [slides] at processed
  exact ⟨s, output, has_slidingTransform (congrArg (·.2) processed)⟩

theorem process_of_silent (silent : (Catalog.builtin.signalsFor n.blockType).output = .ok none) :
    processOf .builtin n = slidingTransform ∨ processOf .builtin n = passFirst ∧
      ∃ type, (Catalog.builtin.signalsFor n.blockType).input = .ok (some type) := by
  cases resolved : Catalog.builtin.resolve n.blockType with
  | none => simp [Catalog.signalsFor, resolved, Signals.output] at silent
  | some d =>
      have signals : Catalog.builtin.signalsFor n.blockType = d.signals := by
        simp [Catalog.signalsFor, resolved]
      have process : processOf .builtin n = d.process := by simp [processOf, resolved]
      rw [signals] at silent ⊢
      rw [process]
      exact Catalog.process_of_no_output (Catalog.mem_blocks_of_resolve resolved) silent

theorem exists_output_builtin (blockType : String) :
    ∃ side, (Catalog.builtin.signalsFor blockType).output = .ok side := by
  obtain ⟨s, declared⟩ := Catalog.exists_signalsFor_builtin blockType
  exact ⟨s.output, by rw [declared, Signals.output]⟩

theorem exists_form (compiled : compile .builtin nodes edges = .ok c) (mem : n ∈ nodes) :
    ∃ form, Gives c.plan n form := by
  obtain ⟨side, declared⟩ := exists_output_builtin n.blockType
  cases side with
  | some type =>
      refine ⟨type.form, fun reachable loaded complete => ?_⟩
      obtain ⟨-, typed, -⟩ := cycle_typed compiled reachable loaded complete
      obtain ⟨s, output, fits⟩ := typed.given n mem type declared
      exact ⟨s, output, fits.has⟩
  | none =>
      rcases process_of_silent declared with slides | ⟨passes, type, wanted⟩
      · refine ⟨.frames, fun reachable loaded complete => ?_⟩
        obtain ⟨solved, -⟩ := cycle_typed compiled reachable loaded complete
        exact has_of_slidingTransform slides (solved n mem)
      · refine ⟨(if predecessors edges n.id = [] then SignalType.real else type).form,
          fun reachable loaded complete => ?_⟩
        obtain ⟨solved, typed, -⟩ := cycle_typed compiled reachable loaded complete
        obtain ⟨s, output, fits⟩ :=
          fits_of_passFirst _ trivial passes (solved n mem) (typed.taken n mem type wanted)
        exact ⟨s, output, fits.has⟩

theorem length_of_fits {allowed : ℕ → Prop} {type : SignalType} {samples : List Float}
    (fits : (line samples).Fits allowed type) : allowed samples.length := by
  cases fits with
  | real shape length =>
      cases shape
      exact length

theorem length_of_output (compiled : compile .builtin nodes edges = .ok c)
    (plain : ∀ n ∈ nodes, ¬ Transforms n) (mem : n ∈ nodes) {e e' : Engine} {machine : Machine}
    (reachable : Reachable .builtin e) (loaded : e.plan = some c.plan) {outs : List SinkOutput}
    {notices : List Notice} (complete : e.cycle machine = ⟨e', .ok (some outs), notices⟩)
    {samples : List Float} (output : e'.output? n.id = some (line samples)) :
    samples.length = e.settings.bufferSize := by
  obtain ⟨solved, -, typed⟩ := cycle_typed compiled reachable loaded complete
  obtain ⟨side, declared⟩ := exists_output_builtin n.blockType
  cases side with
  | some type =>
      obtain ⟨s, there, fits⟩ := (typed plain).given n mem type declared
      cases output.symm.trans there
      exact length_of_fits fits
  | none =>
      rcases process_of_silent declared with slides | ⟨passes, type, wanted⟩
      · obtain ⟨s, there, has⟩ := has_of_slidingTransform slides (solved n mem)
        cases output.symm.trans there
        cases has
      · have taken := (typed plain).taken n mem type wanted
        obtain ⟨s, there, fits⟩ :=
          fits_of_passFirst (· = e.settings.bufferSize) rfl passes (solved n mem) taken
        cases output.symm.trans there
        exact length_of_fits fits

end Engine

end Flowgraph
