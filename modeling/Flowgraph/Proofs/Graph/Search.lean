import Flowgraph.Graph.Cycle
import Mathlib.Data.List.Chain
import Mathlib.Data.List.Infix
import Mathlib.Data.List.Nodup
import Mathlib.Logic.Relation
import Mathlib.Tactic.ByContra

/-!
# The depth-first search decides whether there is a closed walk

A path is reported only where a walk closes, and once the last steps of all
reported paths are taken away, every walk from a name that was visited ends.
Both directions are carried through the search as invariants of the stack;
neither of them bounds the number of edges between two nodes.
-/

namespace Flowgraph

namespace Graph

open Relation

def Leads (targets : String → List String) (a b : String) : Prop :=
  b ∈ targets a

/-- Every walk from a name comes to an end. -/
def Grounded (r : String → String → Prop) (id : String) : Prop :=
  Acc (fun b a => r a b) id

/-- A path along steps that ends where it starts and comes to no name twice in between. -/
def IsLoop (r : String → String → Prop) (path : List String) : Prop :=
  ∃ id mid, path = id :: mid ++ [id] ∧ (id :: mid).Nodup ∧ path.IsChain r

variable {nodes visited : List String} {targets : String → List String}
  {r : String → String → Prop}

theorem grounded_of_next {id : String} (h : ∀ t, r id t → Grounded r t) : Grounded r id :=
  Acc.intro id h

theorem Grounded.not_closed {id : String} (h : Grounded r id) : ¬ TransGen r id id := by
  induction h with
  | intro id _ ih =>
      intro walk
      obtain ⟨next, step, back⟩ := TransGen.head'_iff.mp walk
      exact ih next step (TransGen.tail' back step)

theorem IsLoop.exists_closed {path : List String} (h : IsLoop r path) :
    ∃ id, TransGen r id id := by
  obtain ⟨id, mid, rfl, -, chain⟩ := h
  refine ⟨id, ?_⟩
  cases mid with
  | nil => exact .single (List.isChain_pair.mp chain)
  | cons next rest =>
      obtain ⟨step, further⟩ := List.isChain_cons_cons.mp chain
      exact .head' step (List.relationReflTransGen_of_exists_isChain_cons _ further (by simp))

/-! ## Closed paths on a stack -/

theorem exists_dropWhile {names : List String} {target : String} (mem : target ∈ names) :
    ∃ mid, names.dropWhile (· ≠ target) = target :: mid := by
  induction names with
  | nil => cases mem
  | cons name rest ih =>
      by_cases here : name = target
      · exact ⟨rest, by simp [here]⟩
      · have later : target ∈ rest := (List.mem_cons.mp mem).resolve_left (Ne.symm here)
        simpa [here] using ih later

theorem exists_closedPath {stack : List Frame} {target : String} (mem : target ∈ onPath stack) :
    ∃ mid, closedPath stack target = target :: mid ++ [target] ∧
      target :: mid <:+ (onPath stack).reverse := by
  obtain ⟨mid, dropped⟩ := exists_dropWhile (List.mem_reverse.mpr mem)
  refine ⟨mid, ?_, dropped ▸ List.dropWhile_suffix _⟩
  rw [closedPath, dropped]

/-- A closed path ends with a step from the top of the stack back to a name on it. -/
theorem suffix_closedPath_iff {f : Frame} {rest : List Frame} {target : String}
    (mem : target ∈ onPath (f :: rest)) {a b : String} :
    [a, b] <:+ closedPath (f :: rest) target ↔ a = f.node ∧ b = target := by
  obtain ⟨mid, eq, suffix⟩ := exists_closedPath mem
  rw [onPath_cons, List.reverse_cons, List.suffix_concat_iff] at suffix
  obtain ⟨front, top, -⟩ := suffix.resolve_left (by simp)
  rw [eq, top, List.append_assoc]
  constructor
  · rintro ⟨before, same⟩
    have ends := List.append_inj_right' same (by simp)
    simpa using ends
  · rintro ⟨rfl, rfl⟩
    exact List.suffix_append _ _

/-! ## What a stack stands for -/

/--
The frames of a stack form a walk that ends in the name `above`, if there is
one, and have only targets of their own left to look at.
-/
def Linked (targets : String → List String) : (above : Option String) → List Frame → Prop
  | _, [] => True
  | above, f :: rest =>
    f.pending ⊆ targets f.node ∧ (∀ t ∈ above, t ∈ targets f.node) ∧
      Linked targets (some f.node) rest

/--
The next names that the frames of a stack have looked at are grounded, but for
the one that the frame above is about.
-/
def Settled (r : String → String → Prop) : (above : Option String) → List Frame → Prop
  | _, [] => True
  | above, f :: rest =>
    (∀ t, r f.node t → t ∈ f.pending ∨ Grounded r t ∨ t ∈ above) ∧ Settled r (some f.node) rest

theorem Linked.below {above : Option String} {stack : List Frame}
    (h : Linked targets above stack) : Linked targets none stack := by
  cases stack with
  | nil => trivial
  | cons f rest => exact ⟨h.1, by simp, h.2.2⟩

/-- The names on a linked stack form a walk from the bottom to the top. -/
theorem Linked.chain {above : Option String} {stack : List Frame}
    (h : Linked targets above stack) : (onPath stack).IsChain fun a b => Leads targets b a := by
  induction stack generalizing above with
  | nil => exact .nil
  | cons f rest ih =>
      cases rest with
      | nil => exact .singleton _
      | cons g rest => exact .cons_cons (h.2.2.2.1 f.node rfl) (ih h.2.2)

/-- After a look at the first target of the top, only that target can come above the top. -/
theorem Linked.advance {node target : String} {pending : List String} {rest : List Frame}
    (h : Linked targets none (⟨node, target :: pending⟩ :: rest)) {above : Option String}
    (only : ∀ t ∈ above, t = target) : Linked targets above (⟨node, pending⟩ :: rest) := by
  refine ⟨fun t ht => h.1 (List.mem_cons_of_mem _ ht), ?_, h.2.2⟩
  intro t ht
  rw [only t ht]
  exact h.1 List.mem_cons_self

theorem Linked.push {node target : String} {pending : List String} {rest : List Frame}
    (h : Linked targets none (⟨node, target :: pending⟩ :: rest)) :
    Linked targets none (⟨target, targets target⟩ :: ⟨node, pending⟩ :: rest) :=
  ⟨List.Subset.refl _, by simp, h.advance (by simp)⟩

/-- A step from the top of a linked stack back to a name on it closes a loop. -/
theorem Linked.isLoop {node target : String} {pending : List String} {rest : List Frame}
    (h : Linked targets none (⟨node, target :: pending⟩ :: rest))
    (distinct : (onPath (⟨node, pending⟩ :: rest)).Nodup)
    (mem : target ∈ onPath (⟨node, pending⟩ :: rest)) :
    IsLoop (Leads targets) (closedPath (⟨node, pending⟩ :: rest) target) := by
  obtain ⟨mid, eq, suffix⟩ := exists_closedPath mem
  refine ⟨target, mid, eq, (List.nodup_reverse.mpr distinct).sublist suffix.sublist, ?_⟩
  have back : Leads targets node target := h.1 List.mem_cons_self
  have walk : (target :: mid).IsChain (Leads targets) :=
    (List.isChain_reverse.mpr h.chain).suffix suffix
  rw [onPath_cons, List.reverse_cons, List.suffix_concat_iff] at suffix
  obtain ⟨front, top, -⟩ := suffix.resolve_left (by simp)
  rw [eq]
  rw [top] at walk ⊢
  rw [List.append_assoc, List.singleton_append]
  exact List.isChain_append_cons_cons.mpr ⟨walk, back, .singleton _⟩

theorem Settled.advance {node target : String} {pending : List String} {rest : List Frame}
    (h : Settled r none (⟨node, target :: pending⟩ :: rest)) {above : Option String}
    (looked : r node target → Grounded r target ∨ target ∈ above) :
    Settled r above (⟨node, pending⟩ :: rest) := by
  refine ⟨?_, h.2⟩
  intro t ht
  rcases h.1 t ht with mem | grounded | impossible
  · rcases List.mem_cons.mp mem with rfl | mem
    · exact .inr (looked ht)
    · exact .inl mem
  · exact .inr (.inl grounded)
  · cases impossible

theorem Settled.push {node target : String} {pending : List String} {rest : List Frame}
    (within : ∀ a b, r a b → Leads targets a b)
    (h : Settled r none (⟨node, target :: pending⟩ :: rest)) :
    Settled r none (⟨target, targets target⟩ :: ⟨node, pending⟩ :: rest) :=
  ⟨fun t ht => .inl (within target t ht), h.advance fun _ => .inr rfl⟩

/-- A top without targets left is grounded, and then nothing is above the frame below. -/
theorem Settled.pop {node : String} {rest : List Frame}
    (h : Settled r none (⟨node, []⟩ :: rest)) : Grounded r node ∧ Settled r none rest := by
  have done : Grounded r node := by
    refine grounded_of_next fun t ht => ?_
    rcases h.1 t ht with pending | grounded | above
    · cases pending
    · exact grounded
    · cases above
  refine ⟨done, ?_⟩
  cases rest with
  | nil => trivial
  | cons f rest =>
      refine ⟨?_, h.2.2⟩
      intro t ht
      rcases h.2.1 t ht with pending | grounded | same
      · exact .inl pending
      · exact .inr (.inl grounded)
      · rw [Option.mem_def, Option.some.injEq] at same
        exact .inr (.inl (same ▸ done))

/-! ## One search -/

theorem isLoop_of_search {stack : List Frame} (linked : Linked targets none stack)
    (distinct : (onPath stack).Nodup) :
    ∀ path ∈ (search nodes targets visited stack).1, IsLoop (Leads targets) path := by
  fun_induction search nodes targets visited stack with
  | case1 => simp
  | case2 visited node rest ih => exact ih linked.2.2.below (List.nodup_cons.mp distinct).2
  | case3 visited node target pending rest back _ ih =>
      refine List.forall_mem_cons.mpr ⟨linked.isLoop distinct back, ?_⟩
      exact ih (linked.advance (by simp)) distinct
  | case4 visited node target pending rest new _ ih =>
      exact ih linked.push (List.nodup_cons.mpr ⟨new, distinct⟩)
  | case5 visited node target pending rest _ _ ih => exact ih (linked.advance (by simp)) distinct

theorem subset_search (nodes : List String) (targets : String → List String)
    (visited : List String) (stack : List Frame) :
    visited ⊆ (search nodes targets visited stack).2 := by
  fun_induction search nodes targets visited stack with
  | case1 => exact List.Subset.refl _
  | case2 _ _ _ ih => exact ih
  | case3 =>
      rename_i ih
      exact ih
  | case4 _ _ _ _ _ _ _ ih => exact fun id old => ih (List.mem_cons_of_mem _ old)
  | case5 _ _ _ _ _ _ _ ih => exact ih

/-- If no step that ends a reported path counts, a search leaves only grounded names visited. -/
theorem grounded_of_search {stack : List Frame} (known : ∀ id, targets id ⊆ nodes)
    (within : ∀ a b, r a b → Leads targets a b) (settled : Settled r none stack)
    (begun : ∀ id ∈ visited, Grounded r id ∨ id ∈ onPath stack)
    (cut : ∀ path ∈ (search nodes targets visited stack).1, ∀ a b, [a, b] <:+ path → ¬ r a b) :
    ∀ id ∈ (search nodes targets visited stack).2, Grounded r id := by
  fun_induction search nodes targets visited stack with
  | case1 visited => exact fun id h => (begun id h).resolve_right (by simp)
  | case2 visited node rest ih =>
      obtain ⟨done, below⟩ := settled.pop
      refine ih below ?_ cut
      intro id hid
      rcases begun id hid with grounded | mem
      · exact .inl grounded
      · rcases List.mem_cons.mp mem with rfl | mem
        · exact .inl done
        · exact .inr mem
  | case3 visited node target pending rest back _ ih =>
      obtain ⟨now, later⟩ := List.forall_mem_cons.mp cut
      have stopped : ¬ r node target :=
        now node target ((suffix_closedPath_iff back).mpr ⟨rfl, rfl⟩)
      exact ih (settled.advance fun step => absurd step stopped) begun later
  | case4 visited node target pending rest _ _ ih =>
      refine ih (settled.push within) ?_ cut
      intro id hid
      rcases List.mem_cons.mp hid with rfl | hid
      · exact .inr List.mem_cons_self
      · exact (begun id hid).imp_right (List.mem_cons_of_mem _)
  | case5 visited node target pending rest offPath skipped ih =>
      refine ih (settled.advance fun step => .inl ?_) begun cut
      -- a known name that is not new and not on the path has been left behind
      have mem : target ∈ nodes := known node (within node target step)
      have old : target ∈ visited := by
        by_contra new
        exact skipped ⟨mem, new⟩
      exact (begun target old).resolve_right offPath

/-! ## Searches from all roots -/

theorem linked_root (id : String) : Linked targets none [⟨id, targets id⟩] :=
  ⟨List.Subset.refl _, by simp, trivial⟩

theorem settled_root (within : ∀ a b, r a b → Leads targets a b) (id : String) :
    Settled r none [⟨id, targets id⟩] :=
  ⟨fun t ht => .inl (within id t ht), trivial⟩

theorem isLoop_of_searchFrom {roots : List String} :
    ∀ path ∈ searchFrom nodes targets visited roots, IsLoop (Leads targets) path := by
  induction roots generalizing visited with
  | nil => simp [searchFrom]
  | cons root roots ih =>
      rw [searchFrom]
      split
      · exact ih
      · refine List.forall_mem_append.mpr ⟨?_, ih⟩
        exact isLoop_of_search (linked_root root) (List.nodup_singleton root)

theorem grounded_of_searchFrom {roots : List String} (known : ∀ id, targets id ⊆ nodes)
    (within : ∀ a b, r a b → Leads targets a b) (begun : ∀ id ∈ visited, Grounded r id)
    (cut : ∀ path ∈ searchFrom nodes targets visited roots, ∀ a b, [a, b] <:+ path → ¬ r a b) :
    ∀ root ∈ roots, Grounded r root := by
  induction roots generalizing visited with
  | nil => simp
  | cons root roots ih =>
      rw [searchFrom] at cut
      split at cut
      · rename_i old
        intro id mem
        rcases List.mem_cons.mp mem with rfl | mem
        · exact begun id old
        · exact ih begun cut id mem
      · obtain ⟨here, later⟩ := List.forall_mem_append.mp cut
        have start : ∀ id ∈ root :: visited, Grounded r id ∨
            id ∈ onPath [⟨root, targets root⟩] := by
          intro id hid
          rcases List.mem_cons.mp hid with rfl | hid
          · exact .inr List.mem_cons_self
          · exact .inl (begun id hid)
        have grounded := grounded_of_search known within (settled_root within root) start here
        intro id mem
        rcases List.mem_cons.mp mem with rfl | mem
        · exact grounded id (subset_search _ _ _ _ List.mem_cons_self)
        · exact ih grounded later id mem

/-- Without the last steps of the closed paths that are found, no walk is closed. -/
theorem not_closed_of_cycles (known : ∀ id, targets id ⊆ nodes)
    (within : ∀ a b, r a b → Leads targets a b)
    (cut : ∀ path ∈ cycles nodes targets, ∀ a b, [a, b] <:+ path → ¬ r a b) :
    ¬ ∃ id, TransGen r id id := by
  rintro ⟨id, walk⟩
  obtain ⟨before, _, step⟩ := TransGen.tail'_iff.mp walk
  have grounded : Grounded r id :=
    grounded_of_searchFrom known within (by simp) cut id (known before (within _ _ step))
  exact grounded.not_closed walk

theorem cycles_eq_nil_iff (known : ∀ id, targets id ⊆ nodes) :
    cycles nodes targets = [] ↔ ¬ ∃ id, TransGen (Leads targets) id id := by
  constructor
  · intro nothing
    exact not_closed_of_cycles known (fun _ _ step => step) (by simp [nothing])
  · intro none
    by_contra found
    obtain ⟨path, mem⟩ := List.exists_mem_of_ne_nil _ found
    exact none (isLoop_of_searchFrom path mem).exists_closed

end Graph

end Flowgraph
