import Flowgraph.Engine.Ticker
import Flowgraph.Proofs.Engine.Lifecycle
import Mathlib.Algebra.BigOperators.Group.Finset.Basic
import Mathlib.Order.Bounds.Basic

/-!
# Driven engines

A ticker tests before each cycle what its host may have changed after the one
before.  Followed from pause to pause, a run ends at the first pause at which
the engine or the host does not go on, at its count, or in a cycle that fails;
the host has then been called back once for each cycle before.
-/

namespace Flowgraph

namespace Engine

variable {catalog : Catalog} {e : Engine}

def counts (now : Engine × Call) : Bool :=
  (now.1.completes? now.2).isSome

/-- A call that neither loads nor starts counts a cycle if it completes one. -/
theorem cycles_perform (reachable : Reachable catalog e) (call : Call)
    (loads : e.loads call = false) (starts : e.starts call = false) :
    (e.perform call).cycles = e.cycles + (counts (e, call)).toNat := by
  obtain ⟨sizes, h⟩ := reachable.exists_lifecycle
  have after := (h.perform reachable.consistent call).cycles
  rw [loads, starts, Bool.or_false, if_neg Bool.false_ne_true, List.length_append, ← h.cycles]
    at after
  rw [after, counts]
  cases e.completes? call <;> rfl

theorem cycles_performAll (reachable : Reachable catalog e) {calls : List Call}
    (going : ∀ now ∈ e.episodes calls, now.1.loads now.2 = false ∧ now.1.starts now.2 = false) :
    (e.performAll calls).cycles = e.cycles + (e.episodes calls).countP counts := by
  induction calls generalizing e with
  | nil => rfl
  | cons call rest ih =>
      obtain ⟨⟨loads, starts⟩, later⟩ := List.forall_mem_cons.mp going
      rw [performAll_cons, ih (.call call reachable) later,
        cycles_perform reachable call loads starts, episodes, List.countP_cons]
      cases counts (e, call) with
      | true => exact Nat.add_right_comm ..
      | false => rfl

theorem Reachable.cycle_ne_none (reachable : Reachable catalog e) (running : e.status = .running)
    (machine : Machine) : (e.cycle machine).result ≠ .ok none := by
  obtain ⟨sizes, h⟩ := reachable.exists_lifecycle
  obtain ⟨plan, loaded⟩ := h.exists_plan (by simp [running])
  rw [cycle_of_running machine running loaded]
  split <;> simp

end Engine

open Engine

/-! ## Hosts -/

namespace Host

variable {σ : Type}

/-- A host that acts on an engine by calls. -/
def calling (stopRequested : σ → Bool)
    (respond : ℕ → List SinkOutput → σ → Engine → σ × List Call) : Host σ where
  stopRequested := stopRequested
  onCycle index outs s e := ((respond index outs s e).1, e.performAll (respond index outs s e).2)

/-- A host that also notes how it is called back, the first time first. -/
def recording (host : Host σ) : Host (σ × List (ℕ × List SinkOutput)) where
  stopRequested noted := host.stopRequested noted.1
  onCycle index outs noted e :=
    (((host.onCycle index outs noted.1 e).1, noted.2 ++ [(index, outs)]),
      (host.onCycle index outs noted.1 e).2)

end Host

namespace Ticker

variable {σ : Type} {machine : Machine} {host : Host σ}

/-! ## Pauses -/

structure Pause (σ : Type) where
  engine : Engine
  host : σ

namespace Pause

def outputs (machine : Machine) (p : Pause σ) : List SinkOutput :=
  match (p.engine.cycle machine).result with
  | .ok (some outs) => outs
  | _ => []

def next (machine : Machine) (host : Host σ) (index : ℕ) (p : Pause σ) : Pause σ :=
  match (p.engine.cycle machine).result with
  | .ok (some outs) =>
    let (s, e) := host.onCycle index outs p.host (p.engine.cycle machine).engine
    ⟨e, s⟩
  | _ => ⟨(p.engine.cycle machine).engine, p.host⟩

def before (machine : Machine) (host : Host σ) (start : Pause σ) : ℕ → Pause σ
  | 0 => start
  | i + 1 => (before machine host start i).next machine host i

/-- The engine or the host does not go on after a pause. -/
def Halted (host : Host σ) (p : Pause σ) : Prop :=
  host.stopRequested p.host = true ∨ p.engine.status ≠ .running

def Passes (machine : Machine) (host : Host σ) (p : Pause σ) : Prop :=
  ¬ p.Halted host ∧ (p.engine.cycle machine).result = .ok (some (p.outputs machine))

variable {p : Pause σ} {catalog : Catalog}

theorem next_of_passes (passes : p.Passes machine host) (index : ℕ) :
    p.next machine host index =
      ⟨(host.onCycle index (p.outputs machine) p.host (p.engine.cycle machine).engine).2,
        (host.onCycle index (p.outputs machine) p.host (p.engine.cycle machine).engine).1⟩ := by
  unfold next
  rw [passes.2]

/-- After a pause an engine or its host does not go on, or a cycle is complete, or one fails. -/
theorem cases_of_reachable (reachable : Reachable catalog p.engine) (machine : Machine)
    (host : Host σ) :
    p.Halted host ∨ p.Passes machine host ∨
      ¬ p.Halted host ∧ ∃ fault, (p.engine.cycle machine).result = .error fault := by
  by_cases halted : p.Halted host
  · exact .inl halted
  · have running : p.engine.status = .running := by
      by_contra stopped
      exact halted (.inr stopped)
    have answered := reachable.cycle_ne_none running machine
    rcases result : (p.engine.cycle machine).result with fault | none | outs
    · exact .inr (.inr ⟨halted, fault, rfl⟩)
    · exact absurd result answered
    · refine .inr (.inl ⟨halted, ?_⟩)
      rw [outputs, result]

def noted (p : Pause σ) (log : List (ℕ × List SinkOutput)) :
    Pause (σ × List (ℕ × List SinkOutput)) :=
  ⟨p.engine, (p.host, log)⟩

theorem Passes.noted (passes : p.Passes machine host) (log : List (ℕ × List SinkOutput)) :
    (p.noted log).Passes machine host.recording :=
  passes

theorem next_noted (passes : p.Passes machine host) (log : List (ℕ × List SinkOutput))
    (index : ℕ) :
    (p.noted log).next machine host.recording index =
      (p.next machine host index).noted (log ++ [(index, p.outputs machine)]) := by
  rw [next_of_passes (passes.noted log), next_of_passes passes]
  rfl

end Pause

/-! ## One tick -/

def behind (notices : List Notice) (run : Run σ) : Run σ :=
  { run with notices := notices ++ run.notices }

def drive (machine : Machine) (host : Host σ) (n index : ℕ) (p : Pause σ) : Run σ :=
  ticks machine host n index p.engine p.host

variable {p start : Pause σ} {catalog : Catalog}

theorem drive_of_halted (halted : p.Halted host) (n index : ℕ) :
    drive machine host n index p = ⟨p.engine, p.host, index, none, []⟩ := by
  cases n with
  | zero => rfl
  | succ n =>
      unfold drive ticks
      split
      · rfl
      · next going =>
          rw [cycle_of_idle machine (.inl (halted.resolve_left going))]

theorem drive_of_passes (passes : p.Passes machine host) (n index : ℕ) :
    drive machine host (n + 1) index p =
      behind (p.engine.cycle machine).notices
        (drive machine host n (index + 1) (p.next machine host index)) := by
  obtain ⟨going, complete⟩ := passes
  rw [Pause.next_of_passes ⟨going, complete⟩, drive, ticks,
    if_neg fun asked => going (.inl asked)]
  rcases cycled : p.engine.cycle machine with ⟨after, result, notices⟩
  rw [cycled] at complete
  cases complete
  rfl

theorem drive_of_fails (going : ¬ p.Halted host) {fault : Fault}
    (fails : (p.engine.cycle machine).result = .error fault) (n index : ℕ) :
    drive machine host (n + 1) index p =
      ⟨(p.engine.cycle machine).engine, p.host, index, some fault,
        (p.engine.cycle machine).notices⟩ := by
  rw [drive, ticks, if_neg fun asked => going (.inl asked)]
  rcases cycled : p.engine.cycle machine with ⟨after, result, notices⟩
  rw [cycled] at fails
  cases fails
  rfl

/-! ## A run -/

/-- What a run to a limit has come to at its last pause. -/
def Ends (machine : Machine) (host : Host σ) (limit : ℕ) (last : Pause σ) (run : Run σ) : Prop :=
  match run.fault with
  | none => run.engine = last.engine ∧ (run.completed = limit ∨ last.Halted host)
  | some fault =>
    run.completed < limit ∧ ¬ last.Halted host ∧
      (last.engine.cycle machine).result = .error fault ∧
      run.engine = (last.engine.cycle machine).engine

/-- A run has gone from pause to pause by complete cycles, from a first index to its last pause. -/
structure Course (machine : Machine) (host : Host σ) (start : Pause σ) (first limit : ℕ)
    (run : Run σ) : Prop where
  first_le : first ≤ run.completed
  le_limit : run.completed ≤ limit
  passes : ∀ i, first ≤ i → i < run.completed → (start.before machine host i).Passes machine host
  host_eq : run.host = (start.before machine host run.completed).host
  ends : Ends machine host limit (start.before machine host run.completed) run

theorem course_drive (reachable : ∀ i, Reachable catalog (start.before machine host i).engine)
    (n index : ℕ) :
    Course machine host start index (index + n)
      (drive machine host n index (start.before machine host index)) := by
  induction n generalizing index with
  | zero => exact ⟨le_rfl, le_rfl, fun i le less => absurd less le.not_gt, rfl, rfl, .inl rfl⟩
  | succ n ih =>
      rcases Pause.cases_of_reachable (reachable index) machine host with
        halted | passes | ⟨going, fault, fails⟩
      · rw [drive_of_halted halted]
        exact ⟨le_rfl, Nat.le_add_right .., fun i le less => absurd less le.not_gt, rfl, rfl,
          .inr halted⟩
      · have rest := ih (index + 1)
        have limit : index + 1 + n = index + (n + 1) := by omega
        rw [limit] at rest
        rw [drive_of_passes passes]
        refine ⟨Nat.le_of_succ_le rest.first_le, rest.le_limit, fun i le less => ?_,
          rest.host_eq, rest.ends⟩
        rcases le.eq_or_lt with rfl | later
        · exact passes
        · exact rest.passes i later less
      · rw [drive_of_fails going fails]
        exact ⟨le_rfl, Nat.le_add_right .., fun i le less => absurd less le.not_gt, rfl,
          Nat.lt_add_of_pos_right n.succ_pos, going, fails, rfl⟩

namespace Course

variable {limit : ℕ} {run : Run σ}

/-- A run that no cycle ends is ended by its limit or at the first pause that halts it. -/
theorem isLeast (course : Course machine host start 0 limit run) (through : run.fault = none) :
    IsLeast {i | i = limit ∨ (start.before machine host i).Halted host} run.completed := by
  have ends := course.ends
  rw [Ends, through] at ends
  refine ⟨ends.2, ?_⟩
  rintro i (rfl | halted)
  · exact course.le_limit
  · by_contra less
    exact (course.passes i i.zero_le (not_le.mp less)).1 halted

/-- A run is ended by a cycle that fails after complete ones, unless something halts it before. -/
theorem fails_iff (course : Course machine host start 0 limit run) {fault : Fault} {i : ℕ} :
    run.fault = some fault ∧ run.completed = i ↔
      i < limit ∧
        (∀ j < i, ∃ outs, ((start.before machine host j).engine.cycle machine).result =
          .ok (some outs)) ∧
        (∀ j ≤ i, ¬ (start.before machine host j).Halted host) ∧
        ((start.before machine host i).engine.cycle machine).result = .error fault := by
  have ends := course.ends
  constructor
  · rintro ⟨failed, rfl⟩
    rw [Ends, failed] at ends
    obtain ⟨less, going, fails, -⟩ := ends
    refine ⟨less, fun j earlier => ⟨_, (course.passes j j.zero_le earlier).2⟩, fun j le => ?_,
      fails⟩
    rcases le.eq_or_lt with rfl | earlier
    · exact going
    · exact (course.passes j j.zero_le earlier).1
  · rintro ⟨less, complete, going, fails⟩
    -- a complete cycle does not fail, so the run has not got beyond it
    have reached : run.completed ≤ i := by
      by_contra beyond
      have passed := (course.passes i i.zero_le (not_le.mp beyond)).2
      rw [fails] at passed
      cases passed
    rw [Ends] at ends
    cases failed : run.fault with
    | none =>
        rw [failed] at ends
        rcases ends.2 with all | halted
        · omega
        · exact absurd halted (going _ reached)
    | some found =>
        rw [failed] at ends
        obtain ⟨-, -, fails', -⟩ := ends
        rcases reached.eq_or_lt with here | earlier
        · rw [here, fails] at fails'
          cases fails'
          exact ⟨rfl, here⟩
        · obtain ⟨outs, passed⟩ := complete _ earlier
          rw [fails'] at passed
          cases passed

/-- The cycle that ends a run does not count. -/
theorem cycles_eq (course : Course machine host start 0 limit run)
    (reachable : Reachable catalog (start.before machine host run.completed).engine) :
    run.engine.cycles = (start.before machine host run.completed).engine.cycles := by
  have ends := course.ends
  rw [Ends] at ends
  cases failed : run.fault with
  | none =>
      rw [failed] at ends
      rw [ends.1]
  | some fault =>
      rw [failed] at ends
      obtain ⟨-, -, fails, engine⟩ := ends
      have uncounted : counts ((start.before machine host run.completed).engine, .cycle machine) =
          false := by
        simp only [counts, completes?, fails, Option.isSome_none]
      have cycled := cycles_perform reachable (.cycle machine) rfl rfl
      rw [uncounted] at cycled
      rw [engine]
      exact cycled

end Course

/-! ## Callbacks -/

def callbacks (machine : Machine) (host : Host σ) (start : Pause σ) (first last : ℕ) :
    List (ℕ × List SinkOutput) :=
  (List.range' first (last - first)).map fun i => (i, (start.before machine host i).outputs machine)

theorem callbacks_self (first : ℕ) : callbacks machine host start first first = [] := by
  simp [callbacks]

theorem callbacks_of_lt {first last : ℕ} (less : first < last) :
    callbacks machine host start first last =
      (first, (start.before machine host first).outputs machine) ::
        callbacks machine host start (first + 1) last := by
  have more : last - first = last - (first + 1) + 1 := by omega
  rw [callbacks, more, List.range'_succ, List.map_cons, callbacks]

def noted (machine : Machine) (host : Host σ) (start : Pause σ) (first : ℕ)
    (log : List (ℕ × List SinkOutput)) (run : Run σ) : Run (σ × List (ℕ × List SinkOutput)) :=
  { run with host := (run.host, log ++ callbacks machine host start first run.completed) }

/-- Noting the callbacks changes nothing else, and there is one for each complete cycle. -/
theorem drive_noted (reachable : ∀ i, Reachable catalog (start.before machine host i).engine)
    (n index : ℕ) (log : List (ℕ × List SinkOutput)) :
    drive machine host.recording n index ((start.before machine host index).noted log) =
      noted machine host start index log
        (drive machine host n index (start.before machine host index)) := by
  induction n generalizing index log with
  | zero => simp only [drive, ticks, noted, callbacks_self, List.append_nil, Pause.noted]
  | succ n ih =>
      rcases Pause.cases_of_reachable (reachable index) machine host with
        halted | passes | ⟨going, fault, fails⟩
      · have quiet : ((start.before machine host index).noted log).Halted host.recording := halted
        rw [drive_of_halted halted, drive_of_halted quiet, noted, callbacks_self, List.append_nil]
        rfl
      · have further := (course_drive reachable n (index + 1)).first_le
        have rest := ih (index + 1)
          (log ++ [(index, (start.before machine host index).outputs machine)])
        rw [noted, List.append_assoc, List.singleton_append, ← callbacks_of_lt further] at rest
        rw [drive_of_passes passes, drive_of_passes (passes.noted log), Pause.next_noted passes]
        exact congrArg (behind _) rest
      · have heard : ¬ ((start.before machine host index).noted log).Halted host.recording := going
        rw [drive_of_fails going fails, drive_of_fails heard fails, noted, callbacks_self,
          List.append_nil]
        rfl

/-! ## Hosts that act by calls -/

section

variable {stopRequested : σ → Bool} {respond : ℕ → List SinkOutput → σ → Engine → σ × List Call}

/-- The calls of a host after a complete cycle, each with the engine it is made on. -/
def Pause.answers (machine : Machine) (respond : ℕ → List SinkOutput → σ → Engine → σ × List Call)
    (index : ℕ) (p : Pause σ) : List (Engine × Call) :=
  let after := (p.engine.cycle machine).engine
  after.episodes (respond index (p.outputs machine) p.host after).2

theorem reachable_before (reachable : Reachable catalog start.engine) (i : ℕ) :
    Reachable catalog (start.before machine (.calling stopRequested respond) i).engine := by
  induction i with
  | zero => exact reachable
  | succ i ih =>
      have cycled := Reachable.call (.cycle machine) ih
      unfold Pause.before Pause.next
      split
      · exact reachable_performAll cycled _
      · exact cycled

/-- A complete cycle counts once, and then what the host completes itself counts. -/
theorem cycles_next (reachable : Reachable catalog p.engine)
    (passes : p.Passes machine (.calling stopRequested respond)) (index : ℕ)
    (going : ∀ now ∈ p.answers machine respond index,
      now.1.loads now.2 = false ∧ now.1.starts now.2 = false) :
    (p.next machine (.calling stopRequested respond) index).engine.cycles =
      p.engine.cycles + 1 + (p.answers machine respond index).countP counts := by
  have counted : counts (p.engine, .cycle machine) = true := by
    simp only [counts, completes?, passes.2, Option.isSome_some]
  have cycled := cycles_perform reachable (.cycle machine) rfl rfl
  rw [counted] at cycled
  rw [Pause.next_of_passes passes]
  exact (cycles_performAll (.call (.cycle machine) reachable) going).trans
    (congrArg (· + _) cycled)

theorem cycles_before (start : Pause σ) (reachable : Reachable catalog start.engine) {k : ℕ}
    (passes : ∀ i < k, (start.before machine (.calling stopRequested respond) i).Passes machine
      (.calling stopRequested respond))
    (going : ∀ i < k, ∀ now ∈
      (start.before machine (.calling stopRequested respond) i).answers machine respond i,
      now.1.loads now.2 = false ∧ now.1.starts now.2 = false) :
    (start.before machine (.calling stopRequested respond) k).engine.cycles =
      start.engine.cycles + k + ∑ i ∈ Finset.range k,
        ((start.before machine (.calling stopRequested respond) i).answers machine respond i).countP
          counts := by
  induction k with
  | zero => rfl
  | succ k ih =>
      have before := ih (fun i less => passes i (Nat.lt_succ_of_lt less))
        fun i less => going i (Nat.lt_succ_of_lt less)
      rw [Pause.before, cycles_next (reachable_before reachable k) (passes k k.lt_succ_self) k
        (going k k.lt_succ_self), before, Finset.sum_range_succ]
      omega

end

/--
Whatever an engine has been through, whatever the count, and however the host
changes its mind and acts on the engine when it is called back: the cycles of a
run are complete one after another, up to the least of the count and the first
pause at which a stop is requested or the engine does not run, and the engine is
then as the last callback has left it.  A run ends before that exactly if a cycle
fails, with the fault of that cycle.  In any case the host has been called back
once for each complete cycle, with its index and what it handed out.  Unless the
host loads or starts, the engine has counted these cycles and those that the host
has completed itself.
-/
theorem run_counts (catalog : Catalog) (history : List Call) (machine : Machine)
    (stopRequested : σ → Bool) (respond : ℕ → List SinkOutput → σ → Engine → σ × List Call)
    (n : ℤ) (s : σ) :
    let e := (new catalog).performAll history
    let host := Host.calling stopRequested respond
    let run := Ticker.run machine host n e s
    let before := Pause.before machine host ⟨e, s⟩
    let halted := fun i => stopRequested (before i).host = true ∨
      (before i).engine.status ≠ .running
    let result := fun i => ((before i).engine.cycle machine).result
    (∀ i < run.completed, ¬ halted i ∧ result i = .ok (some ((before i).outputs machine))) ∧
    Ticker.run machine host.recording n e (s, []) =
      { run with
        host := (run.host,
          (List.range run.completed).map fun i => (i, (before i).outputs machine)) } ∧
    (run.fault = none →
      IsLeast {i | i = n.toNat ∨ halted i} run.completed ∧
        run.engine = (before run.completed).engine ∧ run.host = (before run.completed).host) ∧
    (∀ fault i, run.fault = some fault ∧ run.completed = i ↔
      i < n.toNat ∧ (∀ j < i, ∃ outs, result j = .ok (some outs)) ∧ (∀ j ≤ i, ¬ halted j) ∧
        result i = .error fault) ∧
    ((∀ i < run.completed, ∀ now ∈ (before i).answers machine respond i,
        now.1.loads now.2 = false ∧ now.1.starts now.2 = false) →
      run.engine.cycles = e.cycles + run.completed +
        ∑ i ∈ Finset.range run.completed, ((before i).answers machine respond i).countP counts) := by
  intro e host run before halted result
  have started : Reachable catalog e := reachable_performAll .new history
  have reachable (i : ℕ) : Reachable catalog (before i).engine := reachable_before started i
  have course : Course machine host ⟨e, s⟩ 0 n.toNat run := by
    have driven := course_drive reachable n.toNat 0
    rwa [Nat.zero_add] at driven
  refine ⟨fun i less => course.passes i i.zero_le less, ?_, fun through => ?_,
    fun fault i => course.fails_iff, fun going => ?_⟩
  · have noting := drive_noted reachable n.toNat 0 []
    rw [noted, List.nil_append, callbacks, Nat.sub_zero, ← List.range_eq_range'] at noting
    exact noting
  · have ends := course.ends
    rw [Ends, through] at ends
    exact ⟨course.isLeast through, ends.1, course.host_eq⟩
  · rw [course.cycles_eq (reachable _)]
    exact cycles_before ⟨e, s⟩ started (fun i less => course.passes i i.zero_le less)
      going

/-- A host that stops the engine when it is called back for the second time. -/
example :
    let impatient : Host Unit := .calling (fun _ => false) fun index _ s _ =>
      (s, if index = 1 then [.stop] else [])
    let run := Ticker.run .bare impatient 5 doubling ()
    (run.completed, run.engine.cycles, run.engine.status) = (2, 2, .ready) := by
  rfl

end Ticker

end Flowgraph
