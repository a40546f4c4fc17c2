/-!
# Execution order

First in, first out: nodes without incoming edges start in the order given, and
a node follows as soon as the last edge into it has been passed.
-/

namespace Flowgraph

namespace Graph

/-- Number of edges into each node that have not been passed. -/
abbrev Degrees := List (String × Nat)

namespace Degrees

def total : Degrees → Nat
  | [] => 0
  | (_, n) :: rest => n + total rest

/-- Pass one edge into a node; whether it was the last one. -/
def lower : Degrees → String → Degrees × Bool
  | [], _ => ([], false)
  | (id, n) :: rest, target =>
    if id = target then ((id, n - 1) :: rest, n = 1)
    else
      let (rest, ready) := lower rest target
      ((id, n) :: rest, ready)

/-- Pass edges into some nodes; the nodes that became ready, in order. -/
def release (degrees : Degrees) : List String → Degrees × List String
  | [] => (degrees, [])
  | target :: rest =>
    let (degrees, ready) := degrees.lower target
    let (degrees, more) := release degrees rest
    (degrees, if ready then target :: more else more)

theorem total_lower (degrees : Degrees) (target : String) :
    (degrees.lower target).1.total + (if (degrees.lower target).2 then 1 else 0) ≤
      degrees.total := by
  induction degrees with
  | nil => simp [lower]
  | cons entry rest ih =>
    obtain ⟨id, n⟩ := entry
    by_cases h : id = target
    · simp only [lower, h, if_true, total, decide_eq_true_eq]
      split <;> omega
    · simp only [lower, h, if_false, total] at ih ⊢
      omega

theorem total_release (degrees : Degrees) (targets : List String) :
    (degrees.release targets).1.total + (degrees.release targets).2.length ≤ degrees.total := by
  induction targets generalizing degrees with
  | nil => simp [release]
  | cons target rest ih =>
    have first := total_lower degrees target
    have more := ih (degrees.lower target).1
    simp only [release]
    cases h : (degrees.lower target).2 <;> simp [h] at first ⊢ <;> omega

end Degrees

/-- Take nodes off the queue and pass the edges out of them. -/
def drain (targets : String → List String) (degrees : Degrees) (queue : List String) :
    List String :=
  match queue with
  | [] => []
  | id :: queue =>
    id :: drain targets (degrees.release (targets id)).1
      (queue ++ (degrees.release (targets id)).2)
termination_by degrees.total + queue.length
decreasing_by
  have := Degrees.total_release degrees (targets id)
  simp only [List.length_append, List.length_cons]
  omega

def degreesOf (nodes allTargets : List String) : Degrees :=
  nodes.map fun id => (id, allTargets.count id)

/-- The nodes in execution order; nodes on or behind a cycle are left out. -/
def orderOf (nodes allTargets : List String) (targets : String → List String) : List String :=
  drain targets (degreesOf nodes allTargets) (nodes.filter fun id => allTargets.count id = 0)

end Graph

end Flowgraph
