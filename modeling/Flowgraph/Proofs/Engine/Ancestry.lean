import Flowgraph.Proofs.Engine.Session
import Flowgraph.Proofs.Engine.Transcript
import Flowgraph.Proofs.Graph.Shared

/-!
# What a node computes depends on its ancestors alone

Two engines run plans of different graphs side by side.  Nodes that the graphs
share read the same inputs and keep the same records, however the plans order
them and whatever runs between them.
-/

namespace Flowgraph

namespace Engine

open Block Flowgraph.Graph

/-! ## Runs -/

def Finishes (machine : Machine) (e : Engine) : Prop :=
  ∃ outs, (e.cycle machine).result = .ok (some outs)

/-- All cycles among some calls are run to their end. -/
def Completes (e : Engine) : List Call → Prop
  | [] => True
  | .cycle machine :: rest => e.Finishes machine ∧ Completes (e.perform (.cycle machine)) rest
  | call :: rest => Completes (e.perform call) rest

/-- What a node puts out in the cycles among some calls, one after another. -/
def heard (id : String) (e : Engine) : List Call → List (Option Signal)
  | [] => []
  | .cycle machine :: rest =>
    (e.perform (.cycle machine)).output? id :: heard id (e.perform (.cycle machine)) rest
  | call :: rest => heard id (e.perform call) rest

variable {checker catalog : Catalog} {nodes nodes' : List Node} {edges edges' : List Edge}
  {c c' : Compiled} {S : Set String} {machine : Machine} {e e' : Engine}

theorem finishes_iff : e.Finishes machine ↔ (e.cycle machine).result.toOption.join.isSome := by
  unfold Finishes
  rcases (e.cycle machine).result with fault | _ | outs <;> simp [Except.toOption]

theorem Running.finish (compiled : compile checker nodes edges = .ok c)
    (running : Running catalog c.plan e) (finishes : e.Finishes machine) :
    (∀ n ∈ nodes,
      Solved catalog edges e.settings machine e.records (e.perform (.cycle machine)) n) ∧
      Running catalog c.plan (e.perform (.cycle machine)) ∧
      (e.perform (.cycle machine)).settings = e.settings := by
  obtain ⟨outs, result⟩ := finishes
  have completed : e.complete machine = .ok (e.perform (.cycle machine)) := by
    rw [perform_cycle, Engine.complete]
    rcases h : e.cycle machine with ⟨after, fault | _, notices⟩
    · rw [h] at result
      cases result
    · rfl
  obtain ⟨solved, still⟩ := running.complete compiled completed
  exact ⟨solved, still, settings_cycle machine e⟩

theorem Running.configure {plan : Plan} (running : Running catalog plan e)
    (change : Settings.Change) : Running catalog plan (e.perform (.configure change)) := by
  rw [perform_configure]
  split
  · exact running
  · exact ⟨running.status, running.loaded, running.consistent.samePlan ⟨rfl, rfl, rfl⟩⟩

/-! ## Nodes that are alike -/

section Twins

variable {n n' : Node}

theorem paramsOf_twin (twin : n.Twin n') : paramsOf catalog n' = paramsOf catalog n := by
  rw [paramsOf, paramsOf, twin.blockType, twin.params]

theorem processOf_twin (twin : n.Twin n') : processOf catalog n' = processOf catalog n := by
  rw [processOf, processOf, twin.blockType]

theorem recordAt_twin (twin : n.Twin n') {kept kept' : Records}
    (same : kept'.lookup n.id = kept.lookup n.id) :
    recordAt catalog kept' n' = recordAt catalog kept n := by
  rw [recordAt, recordAt, twin.id, same, initialOf, initialOf, twin.blockType]

/-- Nodes that are alike and see the same inputs and records do the same. -/
theorem Solved.same_of_twin {settings : Settings} {kept kept' : Records} (twin : n.Twin n')
    (fed : predecessors edges' n.id = predecessors edges n.id)
    (records : kept'.lookup n.id = kept.lookup n.id)
    (inputs : ∀ a ∈ predecessors edges n.id, e'.output? a = e.output? a)
    (solved : Solved catalog edges settings machine kept e n)
    (solved' : Solved catalog edges' settings machine kept' e' n') :
    e'.output? n.id = e.output? n.id ∧ e'.records.lookup n.id = e.records.lookup n.id := by
  obtain ⟨signals, old, new, signal, read, started, processed, output, record⟩ := solved
  obtain ⟨signals', old', new', signal', read', started', processed', output', record'⟩ := solved'
  rw [twin.id] at read' output' record'
  rw [fed, List.map_congr_left inputs, read] at read'
  rw [recordAt_twin twin records, started] at started'
  rw [← read', processOf_twin twin, paramsOf_twin twin, ← Except.ok.inj started', processed]
    at processed'
  obtain ⟨rfl, same⟩ := Prod.mk.inj processed'
  cases same
  exact ⟨output'.trans output.symm, record'.trans record.symm⟩

end Twins

/-! ## Two engines side by side -/

/-- Two engines with the same settings whose records are the same for some nodes. -/
structure Matched (S : Set String) (e e' : Engine) : Prop where
  settings : e'.settings = e.settings
  records : ∀ id ∈ S, e'.records.lookup id = e.records.lookup id

/--
The equations of shared nodes have one solution: along any sequence in which
nodes follow the nodes that they depend on, two solutions agree.
-/
theorem same_of_solved (shared : Shared S nodes nodes' edges edges') {settings : Settings}
    {kept kept' : Records} {ids : List String} (sequenced : Sequenced (predecessors edges') [] ids)
    (records : ∀ id ∈ S, kept'.lookup id = kept.lookup id)
    (solved : ∀ n ∈ nodes, Solved catalog edges settings machine kept e n)
    (solved' : ∀ n ∈ nodes', n.id ∈ ids → Solved catalog edges' settings machine kept' e' n) :
    ∀ id ∈ ids, id ∈ S →
      e'.output? id = e.output? id ∧ e'.records.lookup id = e.records.lookup id := by
  refine sequenced.induction fun id listed before mem => ?_
  obtain ⟨n, known, n', known', rfl, twin⟩ := shared.twins id mem
  have inputs : ∀ a ∈ predecessors edges n.id, e'.output? a = e.output? a := by
    intro a ha
    have ha' : a ∈ predecessors edges' n.id := by rwa [shared.fed n.id mem]
    exact (before a ha' (shared.closed n.id mem a ha)).1
  exact (solved n known).same_of_twin twin (shared.fed n.id mem) (records n.id mem) inputs
    (solved' n' known' (twin.id.symm ▸ listed))

theorem Matched.cycle (compiled : compile checker nodes edges = .ok c)
    (compiled' : compile checker nodes' edges' = .ok c')
    (shared : Shared S nodes nodes' edges edges') (running : Running catalog c.plan e)
    (running' : Running catalog c'.plan e') (matched : Matched S e e')
    (finishes : e.Finishes machine) (finishes' : e'.Finishes machine) :
    Matched S (e.perform (.cycle machine)) (e'.perform (.cycle machine)) ∧
      ∀ id ∈ S, ∃ signal, (e.perform (.cycle machine)).output? id = some signal ∧
        (e'.perform (.cycle machine)).output? id = some signal := by
  obtain ⟨solved, -, settings⟩ := running.finish compiled finishes
  obtain ⟨solved', -, settings'⟩ := running'.finish compiled' finishes'
  obtain ⟨-, -, -, -, perm, sequenced, -⟩ := of_compile_eq_ok compiled'
  rw [matched.settings] at solved'
  have same := same_of_solved shared sequenced matched.records solved fun n mem _ => solved' n mem
  have listed : ∀ id ∈ S, id ∈ c'.plan.orderIds := by
    intro id mem
    obtain ⟨n, -, n', known', rfl, twin⟩ := shared.twins id mem
    rw [← twin.id]
    exact List.mem_map_of_mem (perm.mem_iff.mpr known')
  refine ⟨⟨by rw [settings', settings, matched.settings], ?_⟩, ?_⟩
  · exact fun id mem => (same id (listed id mem) mem).2
  · intro id mem
    obtain ⟨n, known, -, -, rfl, -⟩ := shared.twins id mem
    obtain ⟨-, -, -, signal, -, -, -, output, -⟩ := solved n known
    exact ⟨signal, output, ((same n.id (listed n.id mem) mem).1).trans output⟩

theorem Matched.configure (matched : Matched S e e') (change : Settings.Change) :
    Matched S (e.perform (.configure change)) (e'.perform (.configure change)) := by
  rw [perform_configure, perform_configure, matched.settings]
  split
  · exact matched
  · exact ⟨rfl, matched.records⟩

/-- Whatever changes between the cycles, shared nodes put out the same in each of them. -/
theorem Matched.heard (compiled : compile checker nodes edges = .ok c)
    (compiled' : compile checker nodes' edges' = .ok c')
    (shared : Shared S nodes nodes' edges edges') (running : Running catalog c.plan e)
    (running' : Running catalog c'.plan e') (matched : Matched S e e') {calls : List Call}
    (steady : ∀ call ∈ calls, call.Steady) (completes : e.Completes calls)
    (completes' : e'.Completes calls) {id : String} (mem : id ∈ S) :
    ∃ signals : List Signal,
      e.heard id calls = signals.map some ∧ e'.heard id calls = signals.map some := by
  induction calls generalizing e e' with
  | nil => exact ⟨[], rfl, rfl⟩
  | cons call rest ih =>
      obtain ⟨now, later⟩ := List.forall_mem_cons.mp steady
      cases call with
      | cycle machine =>
          obtain ⟨finishes, completes⟩ := completes
          obtain ⟨finishes', completes'⟩ := completes'
          obtain ⟨still, outputs⟩ :=
            matched.cycle compiled compiled' shared running running' finishes finishes'
          obtain ⟨signal, output, output'⟩ := outputs id mem
          have next := (running.finish compiled finishes).2.1
          have next' := (running'.finish compiled' finishes').2.1
          obtain ⟨signals, same, same'⟩ := ih next next' still later completes completes'
          refine ⟨signal :: signals, ?_, ?_⟩
          · rw [Engine.heard, output, same, List.map_cons]
          · rw [Engine.heard, output', same', List.map_cons]
      | configure change =>
          exact ih (running.configure change) (running'.configure change)
            (matched.configure change) later completes completes'
      | _ => exact now.elim

/-! ## Cycles that both engines get through -/

theorem exists_takeStep_of_twin {n n' : Node} {settings : Settings} {kept : Records}
    {plan : Plan} {p : Progress} (twin : n.Twin n')
    (fed : (stepOf catalog plan n').dependencies = predecessors edges n.id)
    (records : p.records.lookup n.id = kept.lookup n.id)
    (inputs : ∀ a ∈ predecessors edges n.id, p.outputs.lookup a = e.output? a)
    (solved : Solved catalog edges settings machine kept e n) :
    ∃ q, takeStep settings machine p (stepOf catalog plan n') = (q, none) := by
  obtain ⟨signals, old, new, signal, read, started, processed, -⟩ := solved
  have lookups : (predecessors edges n.id).map (p.outputs.lookup ·) = signals.map some := by
    rw [List.map_congr_left inputs, read]
  have gathered := gather_of_lookups lookups
  rw [← fed] at gathered
  have begun : currentRecord p.records (stepOf catalog plan n') = .ok old := by
    rw [currentRecord_stepOf, recordAt_twin twin records, started]
  have done : (stepOf catalog plan n').process
      (contextOf settings machine (stepOf catalog plan n') (signals.map some)) old =
        (new, .ok signal) := by
    rw [stepOf_eq, processOf_twin twin, paramsOf_twin twin]
    exact processed
  rw [takeStep, gathered, begun]
  simp only [done]
  exact ⟨_, rfl⟩

/-- When a cycle has got to some step, the nodes before it are solved and the others untouched. -/
theorem solved_before (compiled : compile checker nodes edges = .ok c) {settings : Settings}
    {kept : Records} {done rest : List Step} {step : Step} {p : Progress}
    (split : stepsOf catalog c.plan = done ++ step :: rest)
    (taken : takeSteps settings machine ⟨[], kept⟩ done = (p, none)) (e : Engine) :
    (∀ n ∈ nodes, n.id ∈ done.map (·.node.id) →
      Solved catalog edges settings machine kept (e.completed p) n) ∧
      ∀ id ∉ done.map (·.node.id), p.records.lookup id = kept.lookup id := by
  obtain ⟨unique, -, -, -, perm, -⟩ := of_compile_eq_ok compiled
  have distinct := nodup_orderIds compiled
  rw [orderIds_of_split split] at distinct
  obtain ⟨-, -, untouched, ran⟩ :=
    ran_of_takeSteps (p := ⟨[], kept⟩) distinct.of_append_left taken
  refine ⟨?_, untouched⟩
  intro n known earlier
  obtain ⟨s, mem, same⟩ := List.mem_map.mp earlier
  have planned : s ∈ stepsOf catalog c.plan := split ▸ List.mem_append_left _ mem
  obtain ⟨m, listed, rfl⟩ := List.mem_map.mp planned
  rw [stepOf_node] at same
  rw [← List.inj_on_of_nodup_map unique (perm.mem_iff.mp listed) known same]
  exact solved_of_ran compiled listed (ran _ mem)

/--
If every node of the second graph is shared, a cycle that the first engine gets
through does not stop the second one.
-/
theorem Matched.finishes (compiled : compile checker nodes edges = .ok c)
    (compiled' : compile checker nodes' edges' = .ok c')
    (shared : Shared S nodes nodes' edges edges') (whole : ∀ n ∈ nodes', n.id ∈ S)
    (running : Running catalog c.plan e) (running' : Running catalog c'.plan e')
    (matched : Matched S e e') (finishes : e.Finishes machine) : e'.Finishes machine := by
  rcases cycle_cases machine e' with ⟨idle, -⟩ | ⟨_, p, -, -, -, h⟩ | ⟨_, q, i, -, -, taken, -⟩
  · have loaded := running'.loaded
    have runs := running'.status
    grind
  · exact ⟨_, by rw [h]⟩
  -- up to the step that does not get through both engines agree
  exfalso
  obtain ⟨done, step, rest, p, split, before, stopped⟩ := takeSteps_interrupted taken
  rw [running'.consistent.steps_of_plan running'.loaded] at split
  obtain ⟨unique, -, -, -, perm, sequenced, -⟩ := of_compile_eq_ok compiled'
  have distinct := nodup_orderIds compiled'
  rw [orderIds_of_split split] at distinct sequenced
  rw [matched.settings] at before stopped
  obtain ⟨solved, -⟩ := running.finish compiled finishes
  obtain ⟨solved', untouched⟩ := solved_before compiled' split before e'
  have same := same_of_solved shared sequenced.before matched.records solved solved'
  -- so its node sees what the twin of the node sees
  have planned : step ∈ stepsOf catalog c'.plan := by simp [split]
  obtain ⟨m, listed, rfl⟩ := List.mem_map.mp planned
  rw [stepOf_node] at distinct sequenced
  have known : m ∈ nodes' := perm.mem_iff.mp listed
  have mem := whole m known
  obtain ⟨n, there, n', known', id, twin⟩ := shared.twins m.id mem
  obtain rfl : n' = m := List.inj_on_of_nodup_map unique known' known (twin.id.trans id)
  rw [← id] at mem
  have fed := shared.fed n.id mem
  have reads : (stepOf catalog c'.plan n').dependencies = predecessors edges n.id := by
    rw [dependencies_stepOf compiled' listed, twin.id, fed]
  have late : n.id ∉ done.map (·.node.id) := by
    rw [id]
    exact fun early => List.disjoint_of_nodup_append distinct early List.mem_cons_self
  have records : p.records.lookup n.id = e.records.lookup n.id :=
    (untouched n.id late).trans (matched.records n.id mem)
  have inputs : ∀ a ∈ predecessors edges n.id,
      p.outputs.lookup a = (e.perform (.cycle machine)).output? a := by
    intro a ha
    have earlier : a ∈ done.map (·.node.id) := by
      rw [← fed, ← twin.id] at ha
      simpa using sequenced.met ha
    exact (same a earlier (shared.closed n.id mem a ha)).1
  obtain ⟨q', through⟩ := exists_takeStep_of_twin twin reads records inputs (solved n there)
  rw [through] at stopped
  cases stopped

theorem Matched.completes (compiled : compile checker nodes edges = .ok c)
    (compiled' : compile checker nodes' edges' = .ok c')
    (shared : Shared S nodes nodes' edges edges') (whole : ∀ n ∈ nodes', n.id ∈ S)
    (running : Running catalog c.plan e) (running' : Running catalog c'.plan e')
    (matched : Matched S e e') {calls : List Call} (steady : ∀ call ∈ calls, call.Steady)
    (completes : e.Completes calls) : e'.Completes calls := by
  induction calls generalizing e e' with
  | nil => trivial
  | cons call rest ih =>
      obtain ⟨now, later⟩ := List.forall_mem_cons.mp steady
      cases call with
      | cycle machine =>
          obtain ⟨finishes, completes⟩ := completes
          have finishes' : e'.Finishes machine :=
            matched.finishes compiled compiled' shared whole running running' finishes
          have still :=
            (matched.cycle compiled compiled' shared running running' finishes finishes').1
          have next := (running.finish compiled finishes).2.1
          have next' := (running'.finish compiled' finishes').2.1
          exact ⟨finishes', ih next next' still later completes⟩
      | configure change =>
          exact ih (running.configure change) (running'.configure change)
            (matched.configure change) later completes
      | _ => exact now.elim

theorem matched_start (S : Set String) {plan plan' : Plan} (consistent : Consistent catalog e)
    (consistent' : Consistent catalog e') (loaded : e.plan = some plan)
    (loaded' : e'.plan = some plan') (settings : e'.settings = e.settings) :
    Running catalog plan (e.perform .start) ∧ Running catalog plan' (e'.perform .start) ∧
      Matched S (e.perform .start) (e'.perform .start) := by
  refine ⟨running_perform_start consistent loaded, running_perform_start consistent' loaded', ?_⟩
  rw [perform_start_of_plan loaded, perform_start_of_plan loaded']
  exact ⟨settings, fun _ _ => rfl⟩

/--
What a node puts out depends on its ancestors and on nothing else.  Two engines
with the same settings are started and run the same cycles under the same
changes of settings; a node that their graphs share puts out the same in every
cycle.  In particular it does not matter how a graph is written down, as long as
the edges into each node keep their order: the other graph compiles too, and an
engine for it completes the same cycles with the same outputs.
-/
theorem ancestors_decide (compiled : compile checker nodes edges = .ok c)
    (reachable : Reachable catalog e) (loaded : e.plan = some c.plan) {calls : List Call}
    (steady : ∀ call ∈ calls, call.Steady) (completes : (e.perform .start).Completes calls) :
    (∀ nodes' edges' c' S, compile checker nodes' edges' = .ok c' →
      Shared S nodes nodes' edges edges' →
      ∀ e', Reachable catalog e' → e'.plan = some c'.plan → e'.settings = e.settings →
        (e'.perform .start).Completes calls →
          ∀ id ∈ S, ∃ signals : List Signal,
            (e.perform .start).heard id calls = signals.map some ∧
              (e'.perform .start).heard id calls = signals.map some) ∧
    ∀ nodes' edges', Rearranged nodes nodes' edges edges' →
      ∃ c', compile checker nodes' edges' = .ok c' ∧
        ∀ e', Reachable catalog e' → e'.plan = some c'.plan → e'.settings = e.settings →
          (e'.perform .start).Completes calls ∧
            ∀ n ∈ nodes, ∃ signals : List Signal,
              (e.perform .start).heard n.id calls = signals.map some ∧
                (e'.perform .start).heard n.id calls = signals.map some := by
  refine ⟨?_, ?_⟩
  · intro nodes' edges' c' S compiled' shared e' reachable' loaded' settings completes' id mem
    obtain ⟨running, running', matched⟩ :=
      matched_start S reachable.consistent reachable'.consistent loaded loaded' settings
    exact matched.heard compiled compiled' shared running running' steady completes completes' mem
  · intro nodes' edges' rearranged
    obtain ⟨c', compiled'⟩ := rearranged.exists_compile compiled
    have shared := rearranged.shared compiled
    refine ⟨c', compiled', fun e' reachable' loaded' settings => ?_⟩
    obtain ⟨running, running', matched⟩ :=
      matched_start { id | id ∈ nodes.map (·.id) } reachable.consistent reachable'.consistent
        loaded loaded' settings
    have whole : ∀ n ∈ nodes', n.id ∈ nodes.map (·.id) :=
      fun n mem => List.mem_map_of_mem (rearranged.permNodes.mem_iff.mp mem)
    have completes' :=
      matched.completes compiled compiled' shared whole running running' steady completes
    refine ⟨completes', fun n mem => ?_⟩
    exact matched.heard compiled compiled' shared running running' steady completes completes'
      (List.mem_map_of_mem mem)

def branched : List Node × List Edge :=
  ([⟨"other", "AUDIO_FILE", [], none⟩, ⟨"product", "MULTIPLIER", [], none⟩,
    ⟨"tape", "AUDIO_FILE", [], some "Tape"⟩, ⟨"sum", "SUMMER", [], none⟩],
   [⟨"e5", "sum", "product", none, none⟩, ⟨"e1", "tape", "sum", none, none⟩,
    ⟨"e4", "other", "product", none, none⟩, ⟨"e2", "tape", "sum", none, none⟩])

def branchedOrder : List Node :=
  [⟨"other", "AUDIO_FILE", [], none⟩, ⟨"tape", "AUDIO_FILE", [], some "Tape"⟩,
    ⟨"sum", "SUMMER", [], none⟩, ⟨"product", "MULTIPLIER", [], none⟩]

theorem compile_branched :
    compile .builtin branched.1 branched.2 =
      .ok ⟨exactPlan branched.2 branchedOrder, ⟨4, 4, 4, 2, 1⟩⟩ := by
  have fit : edgeFailures .builtin branched.1 branched.2 = .ok [] := by rfl
  rw [compile, compileWith, fit]
  cbv

theorem shared_branched :
    Shared { id | id = "tape" ∨ id = "sum" } twiceFed.1 branched.1 twiceFed.2 branched.2 := by
  refine ⟨?_, ?_, ?_⟩
  · rintro id (rfl | rfl)
    · exact ⟨⟨"tape", "AUDIO_FILE", [], none⟩, by simp [twiceFed],
        ⟨"tape", "AUDIO_FILE", [], some "Tape"⟩, by simp [branched], rfl, rfl, rfl, rfl⟩
    · exact ⟨⟨"sum", "SUMMER", [], none⟩, by simp [twiceFed], ⟨"sum", "SUMMER", [], none⟩,
        by simp [branched], rfl, rfl, rfl, rfl⟩
  · rintro id (rfl | rfl) <;> rfl
  · rintro id (rfl | rfl) <;> simp [predecessors, twiceFed]

def branching : Engine :=
  (new .builtin).perform
    (.prepare (exactPlan branched.2 branchedOrder) (.replace (sized 2 Nat.two_pos)))

def lengthening : List Call :=
  [.cycle .bare, .configure (.replace (sized 3 (by decide))), .cycle .bare]

theorem ancestors_decide_branched :
    ∃ c c', compile .builtin twiceFed.1 twiceFed.2 = .ok c ∧
      compile .builtin branched.1 branched.2 = .ok c' ∧
      doubling.plan = some c.plan ∧ branching.plan = some c'.plan ∧
      (∀ id ∈ ["tape", "sum"], ∃ signals : List Signal, signals.length = 2 ∧
        (doubling.perform .start).heard id lengthening = signals.map some ∧
        (branching.perform .start).heard id lengthening = signals.map some) ∧
      ∃ c'', compile .builtin twiceFed.1.reverse twiceFed.2 = .ok c'' := by
  have reachable : Reachable .builtin doubling := .call _ (.call _ .new)
  have reachable' : Reachable .builtin branching := .call _ .new
  have steady : ∀ call ∈ lengthening, call.Steady := by simp [lengthening, Call.Steady]
  have completes : (doubling.perform .start).Completes lengthening :=
    ⟨finishes_iff.mpr (by rfl), finishes_iff.mpr (by rfl), trivial⟩
  have completes' : (branching.perform .start).Completes lengthening :=
    ⟨finishes_iff.mpr (by rfl), finishes_iff.mpr (by rfl), trivial⟩
  obtain ⟨decided, rewritten⟩ := ancestors_decide compile_twiceFed reachable rfl steady completes
  refine ⟨_, _, compile_twiceFed, compile_branched, rfl, rfl, ?_, ?_⟩
  · intro id mem
    have shared : id = "tape" ∨ id = "sum" := by simpa using mem
    obtain ⟨signals, same, same'⟩ := decided _ _ _ _ compile_branched shared_branched branching
      reachable' rfl rfl completes' id shared
    refine ⟨signals, ?_, same, same'⟩
    rw [← List.length_map some, ← same]
    rfl
  · obtain ⟨c'', compiled, -⟩ := rewritten twiceFed.1.reverse twiceFed.2
      ⟨List.reverse_perm _, .refl _, fun _ => rfl⟩
    exact ⟨c'', compiled⟩

end Engine

end Flowgraph
