import Flowgraph.Proofs.Graph.Search

/-!
# The search step by step

A search can be run with a table of the names on its path and with a position in
the targets of each of them, one look at a time.  A closed path is then cut out
of the path at the place of its first name.  Run so, the search comes to an end,
finds a place for every name that the table lists, and reports the same paths.
-/

namespace Flowgraph

namespace Graph

open Relation

/-- The part of a path from the place of a name on, closed; none if the name has no place on it. -/
def closed? (names : List String) (target : String) : Option (List String) :=
  (names.idxOf? target).map fun start => names.drop start ++ [target]

/--
A search under way: the names visited, those of them that are marked as being on
the path, the path itself, its end first, with the position of the next target
to look at for each name, and the closed paths found.
-/
structure Tour where
  visited : List String
  marked : List String
  path : List (String × Nat)
  found : List (List String)

namespace Tour

def start : Tour := ⟨[], [], [], []⟩

def enter (t : Tour) (id : String) : Tour :=
  { t with visited := id :: t.visited, marked := id :: t.marked, path := (id, 0) :: t.path }

/-- Look at one more target; none if the path is empty or a marked name has no place on it. -/
def step? (targets : String → List String) (t : Tour) : Option Tour :=
  match t.path with
  | [] => none
  | (node, position) :: rest =>
    match (targets node)[position]? with
    | none => some { t with marked := t.marked.filter (· ≠ node), path := rest }
    | some target =>
      let t := { t with path := (node, position + 1) :: rest }
      if target ∈ t.marked then
        (closed? (t.path.map (·.1)).reverse target).map fun path =>
          { t with found := t.found ++ [path] }
      else if target ∈ t.visited then some t
      else some (t.enter target)

end Tour

def Leading (targets : String → List String) : Tour → Tour → Prop :=
  ReflTransGen fun t next => t.step? targets = some next

def Unstuck (targets : String → List String) (t : Tour) : Prop :=
  ∀ now, Leading targets t now → now.path ≠ [] → ∃ next, now.step? targets = some next

/--
A search from each of some roots in turn that has not been visited yet; each is
taken to its end and is not stuck on the way.
-/
inductive Toured (targets : String → List String) : Tour → List String → Tour → Prop
  | done (t : Tour) : Toured targets t [] t
  | skip {t last : Tour} {root : String} {roots : List String} (old : root ∈ t.visited)
      (later : Toured targets t roots last) : Toured targets t (root :: roots) last
  | search {t next last : Tour} {root : String} {roots : List String} (new : root ∉ t.visited)
      (steps : Leading targets (t.enter root) next) (ended : next.path = [])
      (unstuck : Unstuck targets (t.enter root)) (later : Toured targets next roots last) :
      Toured targets t (root :: roots) last

variable {nodes visited : List String} {targets : String → List String} {stack : List Frame}
  {t : Tour}

/-- Steps that lead to an end can be taken from every state on the way. -/
theorem Leading.unstuck {last : Tour} (steps : Leading targets t last) (ended : last.path = []) :
    Unstuck targets t := by
  intro now before under
  have same : Relator.RightUnique fun t next : Tour => t.step? targets = some next :=
    fun _ _ _ h h' => Option.some.inj (h.symm.trans h')
  rcases ReflTransGen.total_of_right_unique same before steps with ahead | back
  · rcases ahead.cases_head with rfl | ⟨next, step, -⟩
    · exact absurd ended under
    · exact ⟨next, step⟩
  · rcases back.cases_head with rfl | ⟨next, step, -⟩
    · exact absurd ended under
    · simp [Tour.step?, ended] at step

/-- A name on a path has a place there, and the path is cut where the name first stands. -/
theorem closed?_of_mem {names : List String} {target : String} (mem : target ∈ names) :
    closed? names target = some (names.dropWhile (· ≠ target) ++ [target]) := by
  induction names with
  | nil => cases mem
  | cons name rest ih =>
      by_cases here : name = target
      · simp [closed?, List.idxOf?_cons, here]
      · have later := ih ((List.mem_cons.mp mem).resolve_left (Ne.symm here))
        simpa [closed?, List.idxOf?_cons, here, Function.comp_def] using later

/-- A state of a search and the stack that it shows with positions. -/
structure Shows (targets : String → List String) (t : Tour) (visited : List String)
    (stack : List Frame) : Prop where
  visited : t.visited = visited
  marked : ∀ id, id ∈ t.marked ↔ id ∈ onPath stack
  path : t.path.map (fun p => ⟨p.1, (targets p.1).drop p.2⟩) = stack
  distinct : (onPath stack).Nodup

namespace Shows

theorem names (h : Shows targets t visited stack) : t.path.map (·.1) = onPath stack := by
  simp [← h.path, onPath]

theorem top {node : String} {pending : List String} {rest : List Frame}
    (h : Shows targets t visited (⟨node, pending⟩ :: rest)) :
    ∃ position below, t.path = (node, position) :: below ∧
      (targets node).drop position = pending ∧
      below.map (fun p => ⟨p.1, (targets p.1).drop p.2⟩) = rest := by
  obtain ⟨⟨name, position⟩, below, split, here, later⟩ := List.map_eq_cons_iff.mp h.path
  obtain ⟨rfl, rest⟩ := Frame.mk.inj here
  exact ⟨position, below, split, rest, later⟩

theorem leave {node : String} {rest : List Frame}
    (h : Shows targets t visited (⟨node, []⟩ :: rest)) :
    ∃ next, t.step? targets = some next ∧ Shows targets next visited rest ∧
      next.found = t.found := by
  obtain ⟨position, below, path, through, later⟩ := h.top
  obtain ⟨absent, distinct⟩ := List.nodup_cons.mp h.distinct
  have last : (targets node)[position]? = none := by simpa using through
  refine ⟨{ t with marked := t.marked.filter (· ≠ node), path := below }, ?_,
    ⟨h.visited, fun id => ?_, later, distinct⟩, rfl⟩
  · rw [Tour.step?, path]
    simp only [last]
  · rw [List.mem_filter, h.marked, onPath_cons, List.mem_cons, decide_eq_true_eq]
    constructor
    · exact fun ⟨mem, other⟩ => mem.resolve_left other
    · exact fun mem => ⟨.inr mem, fun same => absent (same ▸ mem)⟩

section

variable {node target : String} {pending : List String} {rest : List Frame}

/-- What a look at the next target of the top sees, and what it makes of the path. -/
theorem look (h : Shows targets t visited (⟨node, target :: pending⟩ :: rest)) :
    ∃ position below, t.path = (node, position) :: below ∧
      (targets node)[position]? = some target ∧
      Shows targets { t with path := (node, position + 1) :: below } visited
        (⟨node, pending⟩ :: rest) := by
  obtain ⟨position, below, path, drop, later⟩ := h.top
  have next : (targets node)[position]? = some target := by
    have head : ((targets node).drop position)[0]? = some target := by simp [drop]
    simpa using head
  have past : (targets node).drop (position + 1) = pending := by
    rw [← List.tail_drop, drop, List.tail_cons]
  exact ⟨position, below, path, next, h.visited, h.marked, by simp [past, later], h.distinct⟩

/-- A marked target has a place on the path, and the path from there is reported. -/
theorem report (h : Shows targets t visited (⟨node, target :: pending⟩ :: rest))
    (back : target ∈ onPath (⟨node, pending⟩ :: rest)) :
    ∃ next, t.step? targets = some next ∧ Shows targets next visited (⟨node, pending⟩ :: rest) ∧
      next.found = t.found ++ [closedPath (⟨node, pending⟩ :: rest) target] := by
  obtain ⟨position, below, path, sees, after⟩ := h.look
  have marked : target ∈ t.marked := (h.marked target).mpr back
  have place := closed?_of_mem (List.mem_reverse.mpr (after.names ▸ back))
  rw [after.names] at place
  refine ⟨⟨t.visited, t.marked, (node, position + 1) :: below, t.found ++ [closedPath _ target]⟩,
    ?_, ⟨after.visited, after.marked, after.path, after.distinct⟩, rfl⟩
  rw [Tour.step?, path]
  simp only [sees, if_pos marked]
  rw [after.names, place]
  rfl

theorem pass (h : Shows targets t visited (⟨node, target :: pending⟩ :: rest))
    (offPath : target ∉ onPath (⟨node, pending⟩ :: rest)) (old : target ∈ visited) :
    ∃ next, t.step? targets = some next ∧ Shows targets next visited (⟨node, pending⟩ :: rest) ∧
      next.found = t.found := by
  obtain ⟨position, below, path, sees, after⟩ := h.look
  have unmarked : target ∉ t.marked := mt (h.marked target).mp offPath
  refine ⟨_, ?_, after, rfl⟩
  rw [Tour.step?, path]
  simp only [sees, if_neg unmarked, h.visited, if_pos old]

theorem enter (h : Shows targets t visited stack) {id : String} (new : id ∉ onPath stack) :
    Shows targets (t.enter id) (id :: visited) (⟨id, targets id⟩ :: stack) := by
  refine ⟨by simp [Tour.enter, h.visited], fun other => ?_, ?_,
    List.nodup_cons.mpr ⟨new, h.distinct⟩⟩
  · simp [Tour.enter, h.marked]
  · simp [Tour.enter, h.path]

theorem follow (h : Shows targets t visited (⟨node, target :: pending⟩ :: rest))
    (offPath : target ∉ onPath (⟨node, pending⟩ :: rest)) (new : target ∉ visited) :
    ∃ next, t.step? targets = some next ∧
      Shows targets next (target :: visited)
        (⟨target, targets target⟩ :: ⟨node, pending⟩ :: rest) ∧ next.found = t.found := by
  obtain ⟨position, below, path, sees, after⟩ := h.look
  have unmarked : target ∉ t.marked := mt (h.marked target).mp offPath
  refine ⟨_, ?_, after.enter offPath, rfl⟩
  rw [Tour.step?, path]
  simp only [sees, if_neg unmarked, h.visited, if_neg new]

end

end Shows

/-- A search that is taken step by step ends with what the search gives. -/
theorem Shows.search (known : ∀ id, targets id ⊆ nodes) (h : Shows targets t visited stack) :
    ∃ last, Leading targets t last ∧
      Shows targets last (search nodes targets visited stack).2 [] ∧
      last.found = t.found ++ (search nodes targets visited stack).1 := by
  fun_induction Graph.search nodes targets visited stack generalizing t with
  | case1 visited => exact ⟨t, .refl, h, by simp⟩
  | case2 visited node rest ih =>
      obtain ⟨next, step, shows, found⟩ := h.leave
      obtain ⟨last, steps, ended, all⟩ := ih shows
      exact ⟨last, .head step steps, ended, by rw [all, found]⟩
  | case3 visited node target pending rest back =>
      rename_i ih
      obtain ⟨next, step, shows, found⟩ := h.report back
      obtain ⟨last, steps, ended, all⟩ := ih shows
      refine ⟨last, .head step steps, ended, ?_⟩
      rw [all, found, List.append_assoc]
      rfl
  | case4 visited node target pending rest offPath new ih =>
      obtain ⟨next, step, shows, found⟩ := h.follow offPath new.2
      obtain ⟨last, steps, ended, all⟩ := ih shows
      exact ⟨last, .head step steps, ended, by rw [all, found]⟩
  | case5 visited node target pending rest offPath skipped ih =>
      have mem : target ∈ nodes := by
        obtain ⟨_, _, _, sees, _⟩ := h.look
        exact known node (List.mem_of_getElem? sees)
      have old : target ∈ visited := by
        by_contra new
        exact skipped ⟨mem, new⟩
      obtain ⟨next, step, shows, found⟩ := h.pass offPath old
      obtain ⟨last, steps, ended, all⟩ := ih shows
      exact ⟨last, .head step steps, ended, by rw [all, found]⟩

theorem Shows.searchFrom (known : ∀ id, targets id ⊆ nodes) {roots : List String}
    (h : Shows targets t visited []) :
    ∃ last, Toured targets t roots last ∧
      last.found = t.found ++ searchFrom nodes targets visited roots := by
  induction roots generalizing t visited with
  | nil => exact ⟨t, .done t, by simp [Graph.searchFrom]⟩
  | cons root roots ih =>
      rw [Graph.searchFrom]
      split
      · rename_i old
        obtain ⟨last, toured, found⟩ := ih h
        exact ⟨last, .skip (h.visited ▸ old) toured, found⟩
      · rename_i new
        have entered : Shows targets (t.enter root) (root :: visited) [⟨root, targets root⟩] :=
          h.enter (by simp)
        obtain ⟨next, steps, ended, some⟩ := entered.search known
        obtain ⟨last, toured, found⟩ := ih ended
        have finished : next.path = [] := by simpa using ended.path
        refine ⟨last, .search (h.visited ▸ new) steps finished (steps.unstuck finished) toured, ?_⟩
        · rw [found, some, List.append_assoc]
          rfl

/-- A search from all nodes can be taken step by step to its end. -/
theorem exists_toured (known : ∀ id, targets id ⊆ nodes) :
    ∃ last, Toured targets .start nodes last ∧ last.found = cycles nodes targets := by
  have start : Shows targets .start [] [] := ⟨rfl, by simp [Tour.start], rfl, .nil⟩
  obtain ⟨last, toured, found⟩ := start.searchFrom known
  exact ⟨last, toured, by simpa [Tour.start, cycles] using found⟩

end Graph

end Flowgraph
