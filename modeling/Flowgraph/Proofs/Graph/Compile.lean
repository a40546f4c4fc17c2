import Flowgraph.Catalog.Builtin
import Flowgraph.Fault.Kind
import Flowgraph.Graph.Compile
import Flowgraph.Proofs.Graph.Checks
import Flowgraph.Proofs.Graph.Draining
import Flowgraph.Proofs.Graph.Search
import Mathlib

/-!
# What compiling a graph gives

A graph compiles exactly if its ids are distinct, its edges fit and it has no
closed walk; the first of these conditions to fail is the one reported, and
ordering the nodes never fails.  The plan of a graph that compiles is read off
its nodes and edges alone.
-/

namespace Flowgraph

namespace Graph

variable {catalog : Catalog} {nodes : List Node} {edges : List Edge}

/-! ## Edges that fit -/

theorem sources_known (fit : ∀ e ∈ edges, Fits catalog nodes e) :
    ∀ e ∈ edges, e.source ∈ nodes.map (·.id) :=
  fun e he => (fit e he).1

theorem targets_known (fit : ∀ e ∈ edges, Fits catalog nodes e) :
    ∀ e ∈ edges, e.target ∈ nodes.map (·.id) :=
  fun e he => (fit e he).2.1

/-! ## Edges that join known nodes -/

theorem leads_successors (edges : List Edge) : Leads (successors edges) = Arrow edges := by
  funext a b
  exact propext mem_successors

theorem successors_known (targets : ∀ e ∈ edges, e.target ∈ nodes.map (·.id)) (id : String) :
    successors edges id ⊆ nodes.map (·.id) := by
  intro target mem
  obtain ⟨e, he, -, rfl⟩ := mem_successors.mp mem
  exact targets e he

theorem closedPaths_eq_nil_iff (sources : ∀ e ∈ edges, e.source ∈ nodes.map (·.id))
    (targets : ∀ e ∈ edges, e.target ∈ nodes.map (·.id)) :
    closedPaths nodes (Index.build nodes Edge.source edges) = [] ↔ ¬ Cyclic edges := by
  rw [closedPaths, Index.targets_build sources, cycles_eq_nil_iff (successors_known targets),
    leads_successors]
  rfl

theorem sort?_of_acyclic (unique : (nodes.map (·.id)).Nodup)
    (sources : ∀ e ∈ edges, e.source ∈ nodes.map (·.id))
    (targets : ∀ e ∈ edges, e.target ∈ nodes.map (·.id)) (acyclic : ¬ Cyclic edges) :
    ∃ order, sort? nodes edges (Index.build nodes Edge.source edges) = some order ∧
      order.Perm nodes ∧ Sequenced (predecessors edges) [] (order.map (·.id)) := by
  have perm := orderOf_perm unique sources targets acyclic
  obtain ⟨permNodes, ids⟩ := filterMap_find?_perm unique perm
  refine ⟨_, ?_, permNodes, ?_⟩
  · have all : (orderOf (nodes.map (·.id)) (edges.map (·.target)) (successors edges)).length =
        nodes.length := by
      rw [perm.length_eq, List.length_map]
    rw [sort?, Index.targets_build sources]
    exact if_pos all
  · rw [ids]
    exact sequenced_orderOf unique targets

/-! ## The stages of a compilation -/

theorem compile_of_repeating (h : Repeating nodes) :
    compile catalog nodes edges =
      .error (.failures ((repeatedIds [] [] (nodes.map (·.id))).map .duplicateNode)) := by
  have found : repeatedIds [] [] (nodes.map (·.id)) ≠ [] :=
    fun none => repeatedIds_nodes_eq_nil_iff.mp none h
  simp [compile, compileWith, found]

theorem compile_of_cyclic (unique : ¬ Repeating nodes) (fit : ∀ e ∈ edges, Fits catalog nodes e)
    (h : Cyclic edges) :
    compile catalog nodes edges =
      .error (.failures [.cyclic (closedPaths nodes (Index.build nodes Edge.source edges))]) := by
  have none := repeatedIds_nodes_eq_nil_iff.mpr unique
  have sound := (edgeFailures_eq_nil_iff (not_repeating_iff.mp unique) edges).mpr fit
  have found : closedPaths nodes (Index.build nodes Edge.source edges) ≠ [] :=
    fun nothing => (closedPaths_eq_nil_iff (sources_known fit) (targets_known fit)).mp nothing h
  simp only [compile, compileWith, none, sound, List.isEmpty_nil, Bool.not_true,
    Bool.false_eq_true, if_false, List.isEmpty_eq_false_iff.mpr found, Bool.not_false, if_true]

/-- The plan of a graph with a given order, read off its edges. -/
def exactPlan (edges : List Edge) (order : List Node) : Plan where
  order := order
  dependencies := order.map fun n => (n.id, predecessors edges n.id)
  outputs := order.map fun n => (n.id, successors edges n.id)
  sources := order.filter fun n => (predecessors edges n.id).isEmpty
  sinks := order.filter fun n => (successors edges n.id).isEmpty

theorem compile_of_acyclic (unique : ¬ Repeating nodes)
    (fit : ∀ e ∈ edges, Fits catalog nodes e) (acyclic : ¬ Cyclic edges) :
    ∃ order, order.Perm nodes ∧ Sequenced (predecessors edges) [] (order.map (·.id)) ∧
      compile catalog nodes edges =
        let plan := exactPlan edges order
        .ok ⟨plan, ⟨nodes.length, edges.length, plan.order.length, plan.sources.length,
          plan.sinks.length⟩⟩ := by
  have distinct := not_repeating_iff.mp unique
  have none := repeatedIds_nodes_eq_nil_iff.mpr unique
  have sound := (edgeFailures_eq_nil_iff distinct edges).mpr fit
  have nothing := (closedPaths_eq_nil_iff (sources_known fit) (targets_known fit)).mpr acyclic
  obtain ⟨order, sorted, perm, sequenced⟩ :=
    sort?_of_acyclic distinct (sources_known fit) (targets_known fit) acyclic
  refine ⟨order, perm, sequenced, ?_⟩
  have plan : planOf order (Index.build nodes Edge.target edges)
      (Index.build nodes Edge.source edges) = exactPlan edges order := by
    rw [planOf, Index.targets_build (sources_known fit), Index.sources_build (targets_known fit)]
    rfl
  simp only [compile, compileWith, none, sound, nothing, sorted, plan, List.isEmpty_nil,
    Bool.not_true, Bool.false_eq_true, if_false]

/-- The ways in which a compilation can go. -/
inductive Outcome (catalog : Catalog) (nodes : List Node) (edges : List Edge) :
    Except Refusal Compiled → Prop
  | repeating (repeating : Repeating nodes) :
      Outcome catalog nodes edges
        (.error (.failures ((repeatedIds [] [] (nodes.map (·.id))).map .duplicateNode)))
  | unreadable (unique : ¬ Repeating nodes) (unreadable : ∃ e ∈ edges, Unreadable catalog nodes e)
      (kind side : String) : Outcome catalog nodes edges (.error (.fault (.noAttribute kind side)))
  | faulty {failures : List Failure} (unique : ¬ Repeating nodes)
      (readable : ∀ e ∈ edges, ¬ Unreadable catalog nodes e)
      (faulty : ∃ e ∈ edges, Faulty catalog nodes e)
      (each : List.Forall₂ (Reported catalog nodes) (edges.filter (Faulty catalog nodes ·))
        failures) : Outcome catalog nodes edges (.error (.failures failures))
  | cyclic (unique : ¬ Repeating nodes) (fit : ∀ e ∈ edges, Fits catalog nodes e)
      (cyclic : Cyclic edges) (paths : List (List String)) :
      Outcome catalog nodes edges (.error (.failures [.cyclic paths]))
  | compiled {order : List Node} (unique : ¬ Repeating nodes)
      (fit : ∀ e ∈ edges, Fits catalog nodes e) (acyclic : ¬ Cyclic edges)
      (perm : order.Perm nodes)
      (sequenced : Sequenced (predecessors edges) [] (order.map (·.id))) :
      Outcome catalog nodes edges
        (let plan := exactPlan edges order
        .ok ⟨plan, ⟨nodes.length, edges.length, plan.order.length, plan.sources.length,
          plan.sinks.length⟩⟩)

theorem outcome (catalog : Catalog) (nodes : List Node) (edges : List Edge) :
    Outcome catalog nodes edges (compile catalog nodes edges) := by
  by_cases repeating : Repeating nodes
  · rw [compile_of_repeating repeating]
    exact .repeating repeating
  have unique := not_repeating_iff.mp repeating
  have none := repeatedIds_nodes_eq_nil_iff.mpr repeating
  by_cases fit : ∀ e ∈ edges, Fits catalog nodes e
  · by_cases cyclic : Cyclic edges
    · rw [compile_of_cyclic repeating fit cyclic]
      exact .cyclic repeating fit cyclic _
    · obtain ⟨order, perm, sequenced, ok⟩ := compile_of_acyclic repeating fit cyclic
      rw [ok]
      exact .compiled repeating fit cyclic perm sequenced
  have some := mt (edgeFailures_eq_nil_iff unique edges).mp fit
  have checked := findings catalog unique edges
  simp only [compile, compileWith, none, List.isEmpty_nil, Bool.not_true, Bool.false_eq_true,
    if_false]
  generalize edgeFailures catalog nodes edges = result at checked some
  cases checked with
  | unreadable unreadable kind side => exact .unreadable repeating unreadable kind side
  | found readable each =>
      rename_i failures
      have found : failures ≠ [] := fun nothing => some (congrArg Except.ok nothing)
      have faulty : ∃ e ∈ edges, Faulty catalog nodes e := by
        by_contra sound
        refine fit fun e he => (fits_iff unique).mpr ⟨readable e he, fun faulty => sound ?_⟩
        exact ⟨e, he, faulty⟩
      simp only [List.isEmpty_eq_false_iff.mpr found, Bool.not_false, if_true]
      exact .faulty repeating readable faulty each

/-- Everything that is known of a graph that compiles. -/
theorem of_compile_eq_ok {c : Compiled} (h : compile catalog nodes edges = .ok c) :
    (nodes.map (·.id)).Nodup ∧ (∀ e ∈ edges, Fits catalog nodes e) ∧ ¬ Cyclic edges ∧
      c.plan = exactPlan edges c.plan.order ∧ c.plan.order.Perm nodes ∧
      Sequenced (predecessors edges) [] c.plan.orderIds ∧
      c.stats = ⟨nodes.length, edges.length, c.plan.order.length, c.plan.sources.length,
        c.plan.sinks.length⟩ := by
  have went := outcome catalog nodes edges
  rw [h] at went
  cases went with
  | compiled unique fit acyclic perm sequenced =>
      exact ⟨not_repeating_iff.mp unique, fit, acyclic, rfl, perm, sequenced, rfl⟩

theorem nodup_orderIds {c : Compiled} (h : compile catalog nodes edges = .ok c) :
    c.plan.orderIds.Nodup := by
  obtain ⟨unique, -, -, -, perm, -⟩ := of_compile_eq_ok h
  exact (perm.map _).nodup_iff.mpr unique

/-! ## The outcome is decided by the graph -/

/-- A compilation reports failures, and only of some kinds. -/
def FailsWith (codes : List String) (result : Except Refusal Compiled) : Prop :=
  ∃ failures, result = .error (.failures failures) ∧ failures ≠ [] ∧ ∀ f ∈ failures, f.code ∈ codes

/-- A compilation ends with a missing attribute, and there is nothing to hand out. -/
def Raises (result : Except Refusal Compiled) : Prop :=
  ∃ cause, result = .error (.fault cause) ∧ cause.kind = .attribute

theorem failsWith_failures_iff {codes : List String} {failures : List Failure} :
    FailsWith codes (.error (.failures failures)) ↔
      failures ≠ [] ∧ ∀ f ∈ failures, f.code ∈ codes := by
  constructor
  · rintro ⟨_, ⟨⟩, some, all⟩
    exact ⟨some, all⟩
  · rintro ⟨some, all⟩
    exact ⟨failures, rfl, some, all⟩

theorem not_failsWith_ok {codes : List String} {c : Compiled} : ¬ FailsWith codes (.ok c) := by
  rintro ⟨_, ⟨⟩, -⟩

theorem not_failsWith_fault {codes : List String} {cause : Fault} :
    ¬ FailsWith codes (.error (.fault cause)) := by
  rintro ⟨_, ⟨⟩, -⟩

theorem FailsWith.not_raises {codes : List String} {result : Except Refusal Compiled}
    (h : FailsWith codes result) : ¬ Raises result := by
  obtain ⟨failures, rfl, -⟩ := h
  rintro ⟨_, ⟨⟩, -⟩

theorem FailsWith.disjoint {codes : List String} {result : Except Refusal Compiled}
    (h : FailsWith codes result) (others : List String) (apart : ∀ code ∈ codes, code ∉ others) :
    ¬ FailsWith others result := by
  rintro ⟨failures', eq', -, all'⟩
  obtain ⟨failures, eq, some, all⟩ := h
  rw [eq] at eq'
  cases eq'
  obtain ⟨f, mem⟩ := List.exists_mem_of_ne_nil _ some
  exact apart f.code (all f mem) (all' f mem)

/-- What a report holds: a plan and its counts if there is no failure, else neither. -/
structure Report.Clear (r : Report) : Prop where
  ordered : ∀ f ∈ r.failures, f.code ≠ "TOPOLOGICAL_SORT_FAILED"
  failures : r.success ↔ r.failures = []
  plan : r.success ↔ r.plan.isSome
  stats : r.success ↔ r.stats.isSome

theorem FailsWith.clear {codes : List String} {result : Except Refusal Compiled}
    (h : FailsWith codes result) (apart : "TOPOLOGICAL_SORT_FAILED" ∉ codes) :
    ∃ report, reportOf result = .ok report ∧ report.Clear := by
  obtain ⟨failures, rfl, some, all⟩ := h
  exact ⟨_, rfl, fun f mem same => apart (same ▸ all f mem), by simpa using some, by simp, by simp⟩

theorem clear_ok (c : Compiled) : ∃ report, reportOf (.ok c) = .ok report ∧ report.Clear :=
  ⟨_, rfl, by simp, by simp, by simp, by simp⟩

theorem repeated_failsWith (h : Repeating nodes) :
    FailsWith ["DUPLICATE_NODE_ID"]
      (.error (.failures ((repeatedIds [] [] (nodes.map (·.id))).map .duplicateNode))) := by
  rw [failsWith_failures_iff]
  constructor
  · rw [ne_eq, List.map_eq_nil_iff]
    exact fun none => repeatedIds_nodes_eq_nil_iff.mp none h
  · intro f mem
    obtain ⟨id, -, rfl⟩ := List.mem_map.mp mem
    exact List.mem_singleton_self _

theorem exists_of_forall₂ {α β : Type} {R : α → β → Prop} {as : List α} {bs : List β}
    (each : List.Forall₂ R as bs) : ∀ b ∈ bs, ∃ a ∈ as, R a b := by
  induction each with
  | nil => simp
  | cons related _ ih =>
      refine List.forall_mem_cons.mpr ⟨⟨_, List.mem_cons_self, related⟩, fun b mem => ?_⟩
      obtain ⟨a, ha, related'⟩ := ih b mem
      exact ⟨a, List.mem_cons_of_mem _ ha, related'⟩

theorem reported_failsWith {reported : List Edge} {failures : List Failure}
    (found : failures ≠ []) (each : List.Forall₂ (Reported catalog nodes) reported failures) :
    FailsWith ["INVALID_CONNECTION", "TYPE_MISMATCH"] (.error (.failures failures)) := by
  refine failsWith_failures_iff.mpr ⟨found, fun f mem => ?_⟩
  obtain ⟨e, -, reported⟩ := exists_of_forall₂ each f mem
  simpa using reported.code

theorem faulty_failsWith {failures : List Failure} (h : ∃ e ∈ edges, Faulty catalog nodes e)
    (each : List.Forall₂ (Reported catalog nodes) (edges.filter (Faulty catalog nodes ·))
      failures) :
    FailsWith ["INVALID_CONNECTION", "TYPE_MISMATCH"] (.error (.failures failures)) := by
  refine reported_failsWith ?_ each
  rintro rfl
  obtain ⟨e, he, faulty⟩ := h
  have nothing := List.forall₂_nil_right_iff.mp each
  exact List.filter_eq_nil_iff.mp nothing e he (by simpa using faulty)

theorem Outcome.raises_iff {result : Except Refusal Compiled}
    (h : Outcome catalog nodes edges result) :
    Raises result ↔ ¬ Repeating nodes ∧ ¬ ∀ e ∈ edges, ¬ Unreadable catalog nodes e := by
  cases h with
  | repeating repeating =>
      simp [(repeated_failsWith repeating).not_raises, repeating]
  | unreadable unique unreadable kind side =>
      have raises : Raises (.error (.fault (.noAttribute kind side))) := ⟨_, rfl, rfl⟩
      simpa [raises, unique] using unreadable
  | faulty unique readable faulty each =>
      simp only [(faulty_failsWith faulty each).not_raises, false_iff]
      exact fun both => both.2 readable
  | cyclic unique fit cyclic paths =>
      simp only [Raises, Except.error.injEq, reduceCtorEq, false_and, exists_false, false_iff]
      exact fun both => both.2 fun e he => (fit e he).not_unreadable
  | compiled unique fit =>
      simp only [Raises, reduceCtorEq, false_and, exists_false, false_iff]
      exact fun both => both.2 fun e he => (fit e he).not_unreadable

/--
Every graph has one outcome.  Ids used twice are reported first.  A graph with
distinct ids raises if some edge joins nodes that do not declare their signals;
else edges that do not fit are reported before closed walks, and a graph without
any of them compiles.
-/
theorem compile_outcome (catalog : Catalog) (nodes : List Node) (edges : List Edge) :
    let result := compile catalog nodes edges
    let Readable := ∀ e ∈ edges, ¬ Unreadable catalog nodes e
    (FailsWith ["DUPLICATE_NODE_ID"] result ↔ Repeating nodes) ∧
    (Raises result ↔ ¬ Repeating nodes ∧ ¬ Readable) ∧
    (¬ Repeating nodes → Readable →
      (FailsWith ["INVALID_CONNECTION", "TYPE_MISMATCH"] result ↔
        ∃ e ∈ edges, Faulty catalog nodes e)) ∧
    (¬ Repeating nodes → Readable → (∀ e ∈ edges, ¬ Faulty catalog nodes e) →
      ((∃ f, result = .error (.failures [f]) ∧ f.code = "CYCLE_DETECTED") ↔ Cyclic edges)) ∧
    ((∃ c, result = .ok c) ↔
      ¬ Repeating nodes ∧ Readable ∧ (∀ e ∈ edges, ¬ Faulty catalog nodes e) ∧ ¬ Cyclic edges) ∧
    (¬ Raises result → ∃ report, reportOf result = .ok report ∧ report.Clear) := by
  intro result Readable
  have went : Outcome catalog nodes edges result := outcome catalog nodes edges
  have raises : Raises result ↔ ¬ Repeating nodes ∧ ¬ Readable := went.raises_iff
  clear_value result
  cases went with
  | repeating repeating =>
      have fails := repeated_failsWith repeating
      refine ⟨by simp [fails, repeating], raises, by simp [repeating], by simp [repeating],
        by simp [repeating], fun _ => fails.clear (by simp)⟩
  | unreadable unique unreadable kind side =>
      have some : ¬ Readable := by simpa [Readable] using unreadable
      refine ⟨by simp [not_failsWith_fault, unique], raises, by simp [some], by simp [some],
        by simp [some], fun calm => absurd (raises.mpr ⟨unique, some⟩) calm⟩
  | faulty unique readable faulty each =>
      have fails := faulty_failsWith faulty each
      have unfit : ¬ ∀ e ∈ edges, ¬ Faulty catalog nodes e := by simpa using faulty
      refine ⟨?_, raises, by simp [fails, faulty], by simp [unfit], by simp [unfit],
        fun _ => fails.clear (by simp)⟩
      simp [fails.disjoint ["DUPLICATE_NODE_ID"] (by simp), unique]
  | cyclic unique fit cyclic paths =>
      have fails : FailsWith ["CYCLE_DETECTED"] (.error (.failures [.cyclic paths])) := by
        simp [failsWith_failures_iff, Failure.code]
      have sound : ¬ ∃ e ∈ edges, Faulty catalog nodes e :=
        fun ⟨e, he, faulty⟩ => (fit e he).not_faulty faulty
      refine ⟨?_, raises, fun _ _ => ?_,
        fun _ _ _ => ⟨fun _ => cyclic, fun _ => ⟨_, rfl, rfl⟩⟩, by simp [cyclic],
        fun _ => fails.clear (by simp)⟩
      · simp [unique, fails.disjoint ["DUPLICATE_NODE_ID"] (by simp)]
      · simp [sound, fails.disjoint ["INVALID_CONNECTION", "TYPE_MISMATCH"] (by simp)]
  | compiled unique fit acyclic perm sequenced =>
      have readable : Readable := fun e he => (fit e he).not_unreadable
      have sound : ∀ e ∈ edges, ¬ Faulty catalog nodes e := fun e he => (fit e he).not_faulty
      refine ⟨by simp [unique, not_failsWith_ok], raises, fun _ _ => ?_,
        by simp [acyclic], ?_, fun _ => clear_ok _⟩
      · simpa [not_failsWith_ok] using sound
      · exact ⟨fun _ => ⟨unique, readable, sound, acyclic⟩, fun _ => ⟨_, rfl⟩⟩

/-- A record of a block type with a text in the place of its signals. -/
def unsided : Catalog.Plain where
  entries := [("id", .text "MUTE"), ("name", .text "Mute"), ("icon", .text "volume_off"),
    ("group", .text "math-blocks"), ("signals", .text "real")]
  process := some (.function Block.passFirst)
  validate := none
  newRecord := none

/-- A catalog takes a record without sides, and compiling an edge between two such nodes raises. -/
theorem exists_compile_raises :
    ∃ c d, Catalog.empty.register (.plain unsided) = .ok (c, d) ∧
      compile c [⟨"a", "MUTE", [], none⟩, ⟨"b", "MUTE", [], none⟩] [⟨"e", "a", "b", none, none⟩] =
        .error (.fault (.noAttribute "str" "output")) :=
  ⟨_, _, rfl, rfl⟩

/-! ## The plan is exact -/

theorem lookup_exactPlan_dependencies (order : List Node) {n : Node} (mem : n ∈ order) :
    (exactPlan edges order).dependencies.lookup n.id = some (predecessors edges n.id) := by
  have table := lookup_tabulated (fun n : Node => n.id) (predecessors edges) order n.id
  rw [if_pos (List.mem_map_of_mem mem)] at table
  exact table

theorem lookup_exactPlan_outputs (order : List Node) {n : Node} (mem : n ∈ order) :
    (exactPlan edges order).outputs.lookup n.id = some (successors edges n.id) := by
  have table := lookup_tabulated (fun n : Node => n.id) (successors edges) order n.id
  rw [if_pos (List.mem_map_of_mem mem)] at table
  exact table

/--
The plan of a graph that compiles lists every node once and after the sources
of the edges into it, links each node to its neighbours with one entry per edge
in the order of the edges, and names as sources and sinks the nodes without
such links; the counts are those of the lists.
-/
theorem compile_exact {c : Compiled} (h : compile catalog nodes edges = .ok c) :
    c.plan.order.Perm nodes ∧ c.plan.orderIds.Nodup ∧
    (∀ e ∈ edges, ∃ before after,
      c.plan.orderIds = before ++ e.target :: after ∧ e.source ∈ before) ∧
    c.plan.dependencies.map (·.1) = c.plan.orderIds ∧
    (∀ n ∈ nodes, c.plan.dependencies.lookup n.id =
      some ((edges.filter fun e => e.target = n.id).map (·.source))) ∧
    c.plan.outputs.map (·.1) = c.plan.orderIds ∧
    (∀ n ∈ nodes, c.plan.outputs.lookup n.id =
      some ((edges.filter fun e => e.source = n.id).map (·.target))) ∧
    c.plan.sources = (c.plan.order.filter fun n => c.plan.dependencies.lookup n.id = some []) ∧
    c.plan.sinks = (c.plan.order.filter fun n => c.plan.outputs.lookup n.id = some []) ∧
    c.stats = ⟨nodes.length, edges.length, c.plan.order.length, c.plan.sources.length,
      c.plan.sinks.length⟩ := by
  obtain ⟨unique, fit, -, exact, perm, sequenced, stats⟩ := of_compile_eq_ok h
  have permIds : c.plan.orderIds.Perm (nodes.map (·.id)) := perm.map _
  have dependencies : ∀ n ∈ c.plan.order,
      c.plan.dependencies.lookup n.id = some (predecessors edges n.id) := by
    intro n mem
    rw [exact]
    exact lookup_exactPlan_dependencies _ mem
  have outputs : ∀ n ∈ c.plan.order,
      c.plan.outputs.lookup n.id = some (successors edges n.id) := by
    intro n mem
    rw [exact]
    exact lookup_exactPlan_outputs _ mem
  refine ⟨perm, permIds.nodup_iff.mpr unique, ?_, ?_, ?_, ?_, ?_, ?_, ?_, stats⟩
  · intro e he
    have listed : e.target ∈ c.plan.orderIds := permIds.mem_iff.mpr (targets_known fit e he)
    have arrow : e.source ∈ predecessors edges e.target :=
      mem_predecessors.mpr ⟨e, he, rfl, rfl⟩
    exact sequenced.split arrow listed
  · rw [exact]
    simp [exactPlan, Plan.orderIds, Function.comp_def]
  · exact fun n mem => dependencies n (perm.mem_iff.mpr mem)
  · rw [exact]
    simp [exactPlan, Plan.orderIds, Function.comp_def]
  · exact fun n mem => outputs n (perm.mem_iff.mpr mem)
  · have sources : c.plan.sources =
        c.plan.order.filter fun n => (predecessors edges n.id).isEmpty :=
      congrArg Plan.sources exact
    rw [sources]
    refine List.filter_congr fun n mem => ?_
    rw [dependencies n mem, Bool.eq_iff_iff]
    simp
  · have sinks : c.plan.sinks =
        c.plan.order.filter fun n => (successors edges n.id).isEmpty :=
      congrArg Plan.sinks exact
    rw [sinks]
    refine List.filter_congr fun n mem => ?_
    rw [outputs n mem, Bool.eq_iff_iff]
    simp

def twiceFed : List Node × List Edge :=
  ([⟨"scope", "OSCILLOSCOPE", [], none⟩, ⟨"sum", "SUMMER", [], none⟩,
    ⟨"tape", "AUDIO_FILE", [], none⟩],
   [⟨"e1", "tape", "sum", none, none⟩, ⟨"e2", "sum", "scope", none, none⟩,
    ⟨"e3", "tape", "sum", none, none⟩])

theorem compile_twiceFed :
    compile .builtin twiceFed.1 twiceFed.2 =
      .ok ⟨exactPlan twiceFed.2 twiceFed.1.reverse, ⟨3, 3, 3, 1, 1⟩⟩ := by
  -- the types are looked up first: only what is left is evaluated as a program
  have fit : edgeFailures .builtin twiceFed.1 twiceFed.2 = .ok [] := by rfl
  rw [compile, compileWith, fit]
  cbv

theorem compile_exact_twiceFed :
    ∃ c, compile .builtin twiceFed.1 twiceFed.2 = .ok c ∧
      c.plan.order.Perm twiceFed.1 ∧ c.plan.orderIds = ["tape", "sum", "scope"] ∧
      c.plan.dependencies.lookup "sum" = some ["tape", "tape"] := by
  obtain ⟨perm, -, -, -, dependencies, -⟩ := compile_exact compile_twiceFed
  refine ⟨_, compile_twiceFed, perm, rfl, ?_⟩
  exact dependencies ⟨"sum", "SUMMER", [], none⟩ (by simp [twiceFed])

end Graph

end Flowgraph
