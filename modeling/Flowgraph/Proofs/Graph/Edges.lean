import Flowgraph.Graph.Basic
import Mathlib.Logic.Relation

/-!
# Edges as a relation

Walks are taken along the relation that the edges of a graph induce on ids.
The index of a graph answers with exactly the edges at an id, one entry per
edge and in the order of the edges, so that everything computed from the index
can be read off the list of edges.
-/

namespace Flowgraph

namespace Graph

def Arrow (edges : List Edge) (a b : String) : Prop :=
  ∃ e ∈ edges, e.source = a ∧ e.target = b

/-- Some walk along at least one edge ends where it starts. -/
def Cyclic (edges : List Edge) : Prop :=
  ∃ id, Relation.TransGen (Arrow edges) id id

/-- Targets of the edges out of a node, one per edge. -/
def successors (edges : List Edge) (id : String) : List String :=
  (edges.filter fun e => e.source = id).map (·.target)

/-- Sources of the edges into a node, one per edge. -/
def predecessors (edges : List Edge) (id : String) : List String :=
  (edges.filter fun e => e.target = id).map (·.source)

theorem mem_successors {edges : List Edge} {a b : String} :
    b ∈ successors edges a ↔ Arrow edges a b := by
  simp [successors, Arrow, and_assoc]

theorem mem_predecessors {edges : List Edge} {a b : String} :
    a ∈ predecessors edges b ↔ Arrow edges a b := by
  unfold predecessors Arrow
  simp only [List.mem_map, List.mem_filter, decide_eq_true_eq]
  constructor
  · rintro ⟨e, ⟨he, ht⟩, hs⟩
    exact ⟨e, he, hs, ht⟩
  · rintro ⟨e, he, hs, ht⟩
    exact ⟨e, ⟨he, ht⟩, hs⟩

/-! ## The index -/

theorem lookup_tabulated {α β : Type} (key : α → String) (f : String → β) (xs : List α)
    (id : String) :
    (xs.map fun x => (key x, f (key x))).lookup id =
      if id ∈ xs.map key then some (f id) else none := by
  induction xs with
  | nil => simp
  | cons x rest ih =>
      by_cases h : id = key x
      · simp [h]
      · simp only [List.map_cons, List.lookup_cons, beq_false_of_ne h, ih, List.mem_cons, h,
          false_or]

namespace Index

theorem lookup_enter (index : Index) (key id : String) (e : Edge) :
    (index.enter key e).lookup id =
      if id = key then (index.lookup id).map (· ++ [e]) else index.lookup id := by
  induction index with
  | nil => simp [enter]
  | cons entry rest ih =>
      obtain ⟨k, entered⟩ := entry
      by_cases hk : k = key
      · subst hk
        by_cases hid : id = k
        · simp [enter, hid]
        · simp [enter, hid, List.lookup_cons, beq_false_of_ne hid]
      · by_cases hid : id = k
        · simp [enter, hk, hid]
        · simp only [enter, if_neg hk, List.lookup_cons, beq_false_of_ne hid, ih]

/-- Entering edges one after another files each id's edges in their order. -/
theorem lookup_foldl_enter (ends : Edge → String) (edges : List Edge) (index : Index)
    (id : String) :
    (edges.foldl (fun index e => index.enter (ends e) e) index).lookup id =
      (index.lookup id).map (· ++ edges.filter fun e => ends e = id) := by
  induction edges generalizing index with
  | nil => cases h : index.lookup id <;> simp [h]
  | cons e rest ih =>
      rw [List.foldl_cons, ih, lookup_enter]
      by_cases he : ends e = id
      · cases index.lookup id <;> simp [he]
      · have hid : ¬ id = ends e := fun h => he h.symm
        simp [he, hid]

theorem edgesAt_build (nodes : List Node) (ends : Edge → String) (edges : List Edge)
    (known : ∀ e ∈ edges, ends e ∈ nodes.map (·.id)) (id : String) :
    (build nodes ends edges).edgesAt id = edges.filter fun e => ends e = id := by
  unfold edgesAt build
  have blank := lookup_tabulated (fun n : Node => n.id) (fun _ => ([] : List Edge)) nodes id
  rw [lookup_foldl_enter, blank]
  by_cases h : id ∈ nodes.map (·.id)
  · simp only [if_pos h, Option.map_some, List.nil_append, Option.getD_some]
  · simp only [if_neg h, Option.map_none, Option.getD_none]
    symm
    rw [List.filter_eq_nil_iff]
    intro e he hid
    have key : ends e = id := by simpa using hid
    exact h (key ▸ known e he)

theorem targets_build {nodes : List Node} {edges : List Edge}
    (known : ∀ e ∈ edges, e.source ∈ nodes.map (·.id)) :
    (build nodes Edge.source edges).targets = successors edges := by
  funext id
  rw [targets, edgesAt_build nodes Edge.source edges known, successors]

theorem sources_build {nodes : List Node} {edges : List Edge}
    (known : ∀ e ∈ edges, e.target ∈ nodes.map (·.id)) :
    (build nodes Edge.target edges).sources = predecessors edges := by
  funext id
  rw [sources, edgesAt_build nodes Edge.target edges known, predecessors]

end Index

/-! ## Lists in which needs come first -/

/-- Everything that an id of the list needs stands before it or was there at the start. -/
def Sequenced (needs : String → List String) : (before ids : List String) → Prop
  | _, [] => True
  | before, id :: rest => needs id ⊆ before ∧ Sequenced needs (before ++ [id]) rest

theorem Sequenced.split {needs : String → List String} {before ids : List String}
    (h : Sequenced needs before ids) {a b : String} (ha : a ∈ needs b) (hb : b ∈ ids) :
    ∃ pre post, before ++ ids = pre ++ b :: post ∧ a ∈ pre := by
  induction ids generalizing before with
  | nil => cases hb
  | cons id rest ih =>
      obtain ⟨first, later⟩ := h
      cases hb with
      | head => exact ⟨before, rest, rfl, first ha⟩
      | tail _ hb =>
          obtain ⟨pre, post, split, mem⟩ := ih later hb
          exact ⟨pre, post, by simpa using split, mem⟩

theorem Sequenced.met {needs : String → List String} {before done rest : List String}
    {id : String} (h : Sequenced needs before (done ++ id :: rest)) :
    needs id ⊆ before ++ done := by
  induction done generalizing before with
  | nil => simpa using h.1
  | cons first done ih => simpa using ih h.2

theorem Sequenced.before {needs : String → List String} {start done rest : List String}
    (h : Sequenced needs start (done ++ rest)) : Sequenced needs start done := by
  induction done generalizing start with
  | nil => trivial
  | cons id done ih =>
      obtain ⟨first, later⟩ := h
      exact ⟨first, ih later⟩

/-- A property that passes from the needs of each id to the id holds of the whole list. -/
theorem Sequenced.induction {needs : String → List String} {ids : List String}
    (h : Sequenced needs [] ids) {P : String → Prop}
    (step : ∀ id ∈ ids, (∀ a ∈ needs id, P a) → P id) : ∀ id ∈ ids, P id := by
  suffices ∀ before ids, Sequenced needs before ids → (∀ a ∈ before, P a) →
      (∀ id ∈ ids, (∀ a ∈ needs id, P a) → P id) → ∀ id ∈ ids, P id from
    this [] ids h (by simp) step
  intro before ids
  induction ids generalizing before with
  | nil => simp
  | cons id rest ih =>
      rintro ⟨first, later⟩ known step
      have now : P id := step id List.mem_cons_self fun a ha => known a (first ha)
      intro other mem
      cases mem with
      | head => exact now
      | tail _ mem =>
          refine ih (before ++ [id]) later ?_ ?_ other mem
          · intro a ha
            rcases List.mem_append.mp ha with ha | ha
            · exact known a ha
            · rw [List.mem_singleton.mp ha]
              exact now
          · exact fun x hx => step x (List.mem_cons_of_mem id hx)

end Graph

end Flowgraph
