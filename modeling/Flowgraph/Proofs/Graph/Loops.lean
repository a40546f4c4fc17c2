import Flowgraph.Proofs.Graph.Compile
import Flowgraph.Proofs.Graph.Tour

/-!
# What a report of closed paths covers

Every path reported is a loop, every closed walk has an edge that ends a
reported path, and of the edges that join the same two nodes either all end a
reported path, each its own, or none does.
-/

namespace Flowgraph

namespace Graph

section

variable {nodes visited : List String} {targets : String → List String} {stack : List Frame}
  {a b : String}

/-! ## Paths that end alike -/

/-- Number of paths that end with the step from `a` to `b`. -/
def closings (a b : String) (paths : List (List String)) : Nat :=
  paths.countP ([a, b] <:+ ·)

theorem closings_append (paths more : List (List String)) :
    closings a b (paths ++ more) = closings a b paths + closings a b more :=
  List.countP_append

/-- Number of looks from `a` to `b` left on a stack that find `b` on the path. -/
def due (a b : String) : List Frame → Nat
  | [] => 0
  | f :: rest =>
    if f.node = a then if b ∈ onPath (f :: rest) then f.pending.count b else 0
    else due a b rest

theorem due_eq_zero (absent : a ∉ onPath stack) : due a b stack = 0 := by
  induction stack with
  | nil => rfl
  | cons f rest ih =>
      rw [onPath_cons, List.mem_cons, not_or] at absent
      rw [due, if_neg (Ne.symm absent.1), ih absent.2]

section

variable {node target : String} {pending : List String} {rest : List Frame}

/-- A look back at the path is counted with the path that it closes. -/
theorem due_back (back : target ∈ onPath (⟨node, pending⟩ :: rest)) :
    due a b (⟨node, target :: pending⟩ :: rest) =
      closings a b [closedPath (⟨node, pending⟩ :: rest) target] +
        due a b (⟨node, pending⟩ :: rest) := by
  have ends := @suffix_closedPath_iff ⟨node, pending⟩ rest target back a b
  rw [closings, List.countP_singleton]
  simp only [decide_eq_true_eq, ends, due]
  by_cases here : node = a
  · subst here
    by_cases same : b = target
    · subst same
      have mem : b ∈ onPath (⟨node, b :: pending⟩ :: rest) := back
      rw [if_pos rfl, if_pos rfl, if_pos mem, if_pos back, if_pos ⟨rfl, rfl⟩, List.count_cons_self]
      omega
    · have count : (target :: pending).count b = pending.count b :=
        List.count_cons_of_ne (Ne.symm same)
      simp [same, count]
  · simp [here, Ne.symm here]

/-- A look at a name that is not on the path closes nothing. -/
theorem due_away (away : target ∉ onPath (⟨node, pending⟩ :: rest)) :
    due a b (⟨node, target :: pending⟩ :: rest) = due a b (⟨node, pending⟩ :: rest) := by
  simp only [due]
  split
  · by_cases mem : b ∈ onPath (⟨node, pending⟩ :: rest)
    · have other : target ≠ b := fun same => away (same ▸ mem)
      have still : b ∈ onPath (⟨node, target :: pending⟩ :: rest) := mem
      rw [if_pos mem, if_pos still, List.count_cons_of_ne other]
    · have still : b ∉ onPath (⟨node, target :: pending⟩ :: rest) := mem
      rw [if_neg mem, if_neg still]
  · rfl

end

/-- From a name that was visited a search closes a path with each look that is due. -/
theorem closings_search (old : a ∈ visited) (distinct : (onPath stack).Nodup) :
    closings a b (search nodes targets visited stack).1 = due a b stack := by
  fun_induction search nodes targets visited stack with
  | case1 => rfl
  | case2 visited node rest ih =>
      obtain ⟨absent, below⟩ := List.nodup_cons.mp distinct
      rw [ih old below, due]
      by_cases here : node = a
      · subst here
        rw [due_eq_zero absent]
        simp
      · rw [if_neg here]
  | case3 visited node target pending rest back _ ih =>
      rw [due_back back, ← ih old distinct]
      exact closings_append [_] _
  | case4 visited node target pending rest away new ih =>
      have other : target ≠ a := fun same => new.2 (same ▸ old)
      rw [ih (List.mem_cons_of_mem _ old) (List.nodup_cons.mpr ⟨away, distinct⟩), due_away away,
        due, if_neg other]
  | case5 visited node target pending rest away _ ih => rw [due_away away, ih old distinct]

/-- From a name that a search comes to, it closes a path with each step to a name or with none. -/
theorem closings_search_new (new : a ∉ visited) (begun : onPath stack ⊆ visited)
    (distinct : (onPath stack).Nodup) :
    closings a b (search nodes targets visited stack).1 = 0 ∨
      a ∈ (search nodes targets visited stack).2 ∧
        closings a b (search nodes targets visited stack).1 = (targets a).count b := by
  fun_induction search nodes targets visited stack with
  | case1 => exact .inl rfl
  | case2 visited node rest ih =>
      obtain ⟨-, below⟩ := List.cons_subset.mp begun
      exact ih new below (List.nodup_cons.mp distinct).2
  | case3 visited node target pending rest back _ ih =>
      have other : ¬ (a = node ∧ b = target) := by
        rintro ⟨rfl, -⟩
        exact new (begun List.mem_cons_self)
      have unclosed : closings a b [closedPath (⟨node, pending⟩ :: rest) target] = 0 := by
        rw [closings, List.countP_singleton, if_neg]
        rw [decide_eq_true_eq, suffix_closedPath_iff back]
        exact other
      have later : closings a b (closedPath (⟨node, pending⟩ :: rest) target ::
          (search nodes targets visited (⟨node, pending⟩ :: rest)).1) =
          closings a b (search nodes targets visited (⟨node, pending⟩ :: rest)).1 := by
        rw [← List.singleton_append, closings_append, unclosed, Nat.zero_add]
      rw [← later] at ih
      exact ih new begun distinct
  | case4 visited node target pending rest away fresh ih =>
      have more : onPath (⟨target, targets target⟩ :: ⟨node, pending⟩ :: rest) ⊆
          target :: visited := List.cons_subset_cons _ begun
      have apart : (onPath (⟨target, targets target⟩ :: ⟨node, pending⟩ :: rest)).Nodup :=
        List.nodup_cons.mpr ⟨away, distinct⟩
      by_cases here : a = target
      · subst here
        have old : a ∈ a :: visited := List.mem_cons_self
        rw [closings_search old apart, due, if_pos rfl]
        split
        · exact .inr ⟨subset_search _ _ _ _ old, rfl⟩
        · exact .inl rfl
      · exact ih (by simp [here, new]) more apart
  | case5 visited node target pending rest _ _ ih => exact ih new begun distinct

theorem closings_search_root {root : String} (fresh : root ∉ visited) :
    closings a b (search nodes targets (root :: visited) [⟨root, targets root⟩]).1 = 0 ∨
      a ∉ visited ∧ a ∈ (search nodes targets (root :: visited) [⟨root, targets root⟩]).2 ∧
        closings a b (search nodes targets (root :: visited) [⟨root, targets root⟩]).1 =
          (targets a).count b := by
  have alone : (onPath [⟨root, targets root⟩]).Nodup := List.nodup_singleton root
  by_cases old : a ∈ root :: visited
  · rw [closings_search old alone, due]
    by_cases here : root = a
    · subst here
      rw [if_pos rfl]
      split
      · exact .inr ⟨fresh, subset_search _ _ _ _ old, rfl⟩
      · exact .inl rfl
    · exact .inl (if_neg here)
  · have begun : onPath [⟨root, targets root⟩] ⊆ root :: visited := by simp
    rcases closings_search_new old begun alone with none | ⟨mem, all⟩
    · exact .inl none
    · exact .inr ⟨fun mem => old (List.mem_cons_of_mem _ mem), mem, all⟩

theorem closings_searchFrom {roots : List String} :
    closings a b (searchFrom nodes targets visited roots) = 0 ∨
      a ∉ visited ∧
        closings a b (searchFrom nodes targets visited roots) = (targets a).count b := by
  induction roots generalizing visited with
  | nil => exact .inl rfl
  | cons root roots ih =>
      rw [searchFrom]
      split
      · exact ih
      · rename_i fresh
        dsimp only
        rw [closings_append]
        have kept := subset_search nodes targets (root :: visited) [⟨root, targets root⟩]
        rcases closings_search_root fresh with none | ⟨new, mem, all⟩
        · rw [none, Nat.zero_add]
          refine ih.imp_right ?_
          rintro ⟨later, all⟩
          exact ⟨fun old => later (kept (List.mem_cons_of_mem _ old)), all⟩
        · -- what has been visited ends no path that is found from the roots after it
          have later := ih.resolve_right fun found => found.1 mem
          rw [all, later]
          exact .inr ⟨new, rfl⟩

/-- If a step ends some path that is found, it ends one for each time that it can be taken. -/
theorem closings_cycles (some : closings a b (cycles nodes targets) ≠ 0) :
    closings a b (cycles nodes targets) = (targets a).count b :=
  (closings_searchFrom.resolve_left some).2

end

/-! ## The report on a graph -/

variable {nodes : List Node} {edges : List Edge}

theorem count_successors (edges : List Edge) (a b : String) :
    (successors edges a).count b = edges.countP fun e => e.source = a ∧ e.target = b := by
  rw [successors, List.count, List.countP_map, List.countP_filter]
  refine List.countP_congr fun e _ => ?_
  simp [and_comm]

/--
The closed paths that are reported for a graph are those that a search finds
which is taken step by step to its end and is never stuck.  Each of them is a
loop; without the edges that end one of them no walk is closed; and if one of
them ends with a step between two nodes, as many do as there are edges for it.
-/
theorem closedPaths_cover (sources : ∀ e ∈ edges, e.source ∈ nodes.map (·.id))
    (targets : ∀ e ∈ edges, e.target ∈ nodes.map (·.id)) :
    let outgoing := Index.build nodes Edge.source edges
    let paths := closedPaths nodes outgoing
    (∃ last, Toured outgoing.targets .start (nodes.map (·.id)) last ∧ last.found = paths) ∧
    (∀ path ∈ paths, IsLoop (Arrow edges) path) ∧
    ¬ Cyclic (edges.filter fun e => ∀ path ∈ paths, ¬ [e.source, e.target] <:+ path) ∧
    ∀ a b, (∃ path ∈ paths, [a, b] <:+ path) →
      paths.countP ([a, b] <:+ ·) = edges.countP fun e => e.source = a ∧ e.target = b := by
  intro outgoing paths
  have follow : outgoing.targets = successors edges := Index.targets_build sources
  have known : ∀ id, successors edges id ⊆ nodes.map (·.id) := successors_known targets
  have found : paths = cycles (nodes.map (·.id)) (successors edges) := by
    rw [← follow]
    rfl
  refine ⟨?_, ?_, ?_, ?_⟩
  · rw [found, follow]
    exact exists_toured known
  · rw [found, ← leads_successors]
    exact isLoop_of_searchFrom
  · refine not_closed_of_cycles known ?_ (found ▸ ?_)
    · intro a b step
      obtain ⟨e, he, hs, ht⟩ := step
      exact mem_successors.mpr ⟨e, (List.mem_filter.mp he).1, hs, ht⟩
    · rintro path mem a b last ⟨e, he, rfl, rfl⟩
      have apart := (List.mem_filter.mp he).2
      rw [decide_eq_true_eq] at apart
      exact apart path mem last
  · intro a b closed
    have some : closings a b paths ≠ 0 := by
      rw [closings, ne_eq, List.countP_eq_zero]
      simpa using closed
    rw [← count_successors]
    rw [found] at some ⊢
    exact closings_cycles some

def knot : List Node × List Edge :=
  ([⟨"a", "SUMMER", [], none⟩, ⟨"b", "SUMMER", [], none⟩],
   [⟨"e1", "a", "b", none, none⟩, ⟨"e2", "b", "a", none, none⟩, ⟨"e3", "a", "b", none, none⟩,
    ⟨"e4", "b", "a", none, none⟩, ⟨"e5", "b", "b", none, none⟩])

theorem closedPaths_knot :
    closedPaths knot.1 (Index.build knot.1 Edge.source knot.2) =
      [["a", "b", "a"], ["a", "b", "a"], ["b", "b"]] := by
  cbv

theorem closedPaths_cover_knot :
    (∀ e ∈ knot.2, e.source ∈ knot.1.map (·.id)) ∧ (∀ e ∈ knot.2, e.target ∈ knot.1.map (·.id)) ∧
    ¬ Cyclic [⟨"e1", "a", "b", none, none⟩, ⟨"e3", "a", "b", none, none⟩] ∧
    (knot.2.countP fun e => e.source = "b" ∧ e.target = "a") = 2 := by
  have sources : ∀ e ∈ knot.2, e.source ∈ knot.1.map (·.id) := by decide
  have targets : ∀ e ∈ knot.2, e.target ∈ knot.1.map (·.id) := by decide
  obtain ⟨-, -, acyclic, count⟩ := closedPaths_cover sources targets
  rw [closedPaths_knot] at acyclic count
  exact ⟨sources, targets, acyclic, count "b" "a" ⟨["a", "b", "a"], by decide⟩⟩

end Graph

end Flowgraph
