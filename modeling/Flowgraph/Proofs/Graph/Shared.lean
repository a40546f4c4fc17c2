import Flowgraph.Proofs.Graph.Compile

/-!
# What two graphs have in common

Two graphs share some nodes if these are alike in both and are fed alike: by
the same nodes, in the same order.  A graph that is only written down
differently, without changing the order of the edges into any one node, shares
all of its nodes.
-/

namespace Flowgraph

namespace Graph

variable {checker : Catalog} {nodes nodes' : List Node} {edges edges' : List Edge} {S : Set String}

/-- Nodes of two graphs that are the same but for what they are called by. -/
structure Node.Twin (n n' : Node) : Prop where
  id : n'.id = n.id
  blockType : n'.blockType = n.blockType
  params : n'.params = n.params

/--
Ids that two graphs have in common: each belongs to nodes that are alike, the
edges into these come from the same nodes in the same order, and the ids of
those are shared too.
-/
structure Shared (S : Set String) (nodes nodes' : List Node) (edges edges' : List Edge) :
    Prop where
  twins : ∀ id ∈ S, ∃ n ∈ nodes, ∃ n' ∈ nodes', n.id = id ∧ n.Twin n'
  fed : ∀ id ∈ S, predecessors edges' id = predecessors edges id
  closed : ∀ id ∈ S, ∀ a ∈ predecessors edges id, a ∈ S

/-! ## Writing a graph down differently -/

/--
A graph and another way to write it down: the nodes are permuted, and so are the
edges, but the edges into any one node keep their order.
-/
structure Rearranged (nodes nodes' : List Node) (edges edges' : List Edge) : Prop where
  permNodes : nodes'.Perm nodes
  permEdges : edges'.Perm edges
  order : ∀ id, (edges'.filter fun e => e.target = id) = edges.filter fun e => e.target = id

theorem Rearranged.predecessors_eq (h : Rearranged nodes nodes' edges edges') (id : String) :
    predecessors edges' id = predecessors edges id := by
  rw [predecessors, predecessors, h.order]

theorem Rearranged.exists_compile (h : Rearranged nodes nodes' edges edges') {c : Compiled}
    (compiled : compile checker nodes edges = .ok c) :
    ∃ c', compile checker nodes' edges' = .ok c' := by
  obtain ⟨unique, fit, acyclic, -⟩ := of_compile_eq_ok compiled
  have unique' : ¬ Repeating nodes' :=
    not_repeating_iff.mpr ((h.permNodes.map _).nodup_iff.mpr unique)
  have fit' : ∀ e ∈ edges', Fits checker nodes' e := by
    intro e mem
    have same : Fits checker nodes' e ↔ Fits checker nodes e := by
      unfold Fits
      simp only [List.mem_map, h.permNodes.mem_iff]
    rw [same]
    exact fit e (h.permEdges.mem_iff.mp mem)
  have arrows : Arrow edges' = Arrow edges := by
    funext a b
    unfold Arrow
    simp only [h.permEdges.mem_iff]
  have acyclic' : ¬ Cyclic edges' := by
    unfold Cyclic
    rw [arrows]
    exact acyclic
  obtain ⟨order, -, -, compiled'⟩ := compile_of_acyclic unique' fit' acyclic'
  exact ⟨_, compiled'⟩

theorem Rearranged.shared (h : Rearranged nodes nodes' edges edges') {c : Compiled}
    (compiled : compile checker nodes edges = .ok c) :
    Shared { id | id ∈ nodes.map (·.id) } nodes nodes' edges edges' := by
  obtain ⟨-, fit, -⟩ := of_compile_eq_ok compiled
  refine ⟨?_, fun id _ => h.predecessors_eq id, ?_⟩
  · intro id mem
    obtain ⟨n, listed, rfl⟩ := List.mem_map.mp mem
    exact ⟨n, listed, n, h.permNodes.mem_iff.mpr listed, rfl, rfl, rfl, rfl⟩
  · intro id _ a before
    obtain ⟨e, listed, rfl, -⟩ := mem_predecessors.mp before
    exact sources_known fit e listed

end Graph

end Flowgraph
