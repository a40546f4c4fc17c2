/-!
# Closed paths

A depth-first search over node names reports a closed path for every edge that
leads back to a node of the current path.  The search keeps its path as a stack
of frames, so its depth is not bounded by anything but the graph.
-/

namespace Flowgraph

namespace Graph

/-- A node of the current path and its targets that have not been looked at. -/
structure Frame where
  node : String
  pending : List String
deriving Repr

def unvisited (nodes visited : List String) : List String :=
  nodes.filter fun id => !visited.contains id

def workload : List Frame → Nat
  | [] => 0
  | f :: rest => f.pending.length + 1 + workload rest

/-- The names on the current path, its end first. -/
def onPath (stack : List Frame) : List String :=
  stack.map (·.node)

@[simp]
theorem onPath_nil : onPath [] = [] := rfl

@[simp]
theorem onPath_cons (f : Frame) (rest : List Frame) :
    onPath (f :: rest) = f.node :: onPath rest := rfl

/-- The closed path from the frame of `target` to the top of the stack and back to `target`. -/
def closedPath (stack : List Frame) (target : String) : List String :=
  (onPath stack).reverse.dropWhile (· ≠ target) ++ [target]

theorem length_unvisited_lt {nodes visited : List String} {id : String}
    (known : id ∈ nodes) (new : id ∉ visited) :
    (unvisited nodes (id :: visited)).length < (unvisited nodes visited).length := by
  induction nodes with
  | nil => cases known
  | cons a rest ih =>
    have mono : (unvisited rest (id :: visited)).length ≤ (unvisited rest visited).length := by
      simp only [unvisited, ← List.countP_eq_length_filter]
      exact List.countP_mono_left fun a _ => by simp
    by_cases ha : a = id
    · subst ha
      simpa [unvisited, new, Nat.lt_succ_iff] using mono
    · have tail : id ∈ rest := by
        cases known with
        | head => exact absurd rfl ha
        | tail _ h => exact h
      by_cases hv : a ∈ visited
      · simpa [unvisited, ha, hv] using ih tail
      · simpa [unvisited, ha, hv] using ih tail

/--
Continue a search: the closed paths found, in order, and the nodes visited.
Names that are not among `nodes` are not followed.
-/
def search (nodes : List String) (targets : String → List String) (visited : List String)
    (stack : List Frame) : List (List String) × List String :=
  match stack with
  | [] => ([], visited)
  | ⟨_, []⟩ :: rest => search nodes targets visited rest
  | ⟨node, target :: pending⟩ :: rest =>
    if target ∈ onPath (⟨node, pending⟩ :: rest) then
      let found := search nodes targets visited (⟨node, pending⟩ :: rest)
      (closedPath (⟨node, pending⟩ :: rest) target :: found.1, found.2)
    else if target ∈ nodes ∧ target ∉ visited then
      search nodes targets (target :: visited)
        (⟨target, targets target⟩ :: ⟨node, pending⟩ :: rest)
    else search nodes targets visited (⟨node, pending⟩ :: rest)
termination_by ((unvisited nodes visited).length, workload stack)
decreasing_by
  · exact Prod.Lex.right _ (by simp [workload])
  · exact Prod.Lex.right _ (by simp [workload])
  · rename_i h
    exact Prod.Lex.left _ _ (length_unvisited_lt h.1 h.2)
  · exact Prod.Lex.right _ (by simp [workload])

/-- Search from each of some roots in turn that has not been visited yet. -/
def searchFrom (nodes : List String) (targets : String → List String) (visited : List String) :
    (roots : List String) → List (List String)
  | [] => []
  | root :: roots =>
    if root ∈ visited then searchFrom nodes targets visited roots
    else
      let found := search nodes targets (root :: visited) [⟨root, targets root⟩]
      found.1 ++ searchFrom nodes targets found.2 roots

def cycles (nodes : List String) (targets : String → List String) : List (List String) :=
  searchFrom nodes targets [] nodes

end Graph

end Flowgraph
