import Flowgraph.Graph.Order
import Flowgraph.Proofs.Graph.Edges
import Mathlib.Data.Fintype.Card
import Mathlib.Data.Fintype.EquivFin
import Mathlib.Data.Fintype.Sets
import Mathlib.Data.List.Dedup

/-!
# The queue hands out every node after its predecessors

The table of degrees counts, for every node, the edges whose source has not
been handed out.  A node is queued exactly when that count falls to zero, so it
is queued once, and it comes after the sources of all edges into it.
-/

namespace Flowgraph

namespace Graph

/-! ## The table of degrees -/

namespace Degrees

def left (degrees : Degrees) (id : String) : Nat :=
  (degrees.lookup id).getD 0

theorem left_lower (degrees : Degrees) (target id : String) :
    (degrees.lower target).1.left id =
      if id = target then degrees.left id - 1 else degrees.left id := by
  induction degrees with
  | nil => simp [lower, left]
  | cons entry rest ih =>
      obtain ⟨k, n⟩ := entry
      unfold left at ih ⊢
      by_cases hk : k = target
      · subst hk
        by_cases hid : id = k
        · simp [lower, hid]
        · simp [lower, hid, List.lookup_cons, beq_false_of_ne hid]
      · by_cases hid : id = k
        · simp [lower, hk, hid]
        · simp only [lower, if_neg hk, List.lookup_cons, beq_false_of_ne hid, ih]

theorem lower_ready (degrees : Degrees) (target : String) :
    (degrees.lower target).2 = decide (degrees.left target = 1) := by
  induction degrees with
  | nil => simp [lower, left]
  | cons entry rest ih =>
      obtain ⟨k, n⟩ := entry
      unfold left at ih ⊢
      by_cases hk : k = target
      · simp [lower, hk]
      · have ht : ¬ target = k := fun h => hk h.symm
        simp only [lower, if_neg hk, List.lookup_cons, beq_false_of_ne ht, ih]

theorem left_release (degrees : Degrees) (targets : List String) (id : String) :
    (degrees.release targets).1.left id = degrees.left id - targets.count id := by
  induction targets generalizing degrees with
  | nil => simp [release]
  | cons target rest ih =>
      simp only [release, ih, left_lower]
      by_cases h : id = target
      · rw [if_pos h, h, List.count_cons_self]
        omega
      · rw [if_neg h, List.count_cons_of_ne (Ne.symm h)]

/-- The nodes without further edges left become ready, each when the last edge into it is passed. -/
theorem release_eq (degrees : Degrees) (targets : List String)
    (enough : ∀ id, targets.count id ≤ degrees.left id) :
    (degrees.release targets).2 =
      targets.dedup.filter fun id => degrees.left id = targets.count id := by
  induction targets generalizing degrees with
  | nil => rfl
  | cons target rest ih =>
      -- passing the first edge lowers what is left and what is still to pass alike
      have alike : ∀ id, rest.count id ≤ (degrees.lower target).1.left id ∧
          ((degrees.lower target).1.left id = rest.count id ↔
            degrees.left id = (target :: rest).count id) := by
        intro id
        have given := enough id
        rw [left_lower]
        by_cases same : id = target
        · subst same
          rw [List.count_cons_self] at given ⊢
          rw [if_pos rfl]
          omega
        · rw [List.count_cons_of_ne (Ne.symm same)] at given ⊢
          rw [if_neg same]
          exact ⟨given, Iff.rfl⟩
      have here := enough target
      rw [List.count_cons_self] at here
      simp only [release, lower_ready, decide_eq_true_eq, ih _ fun id => (alike id).1,
        fun id => (alike id).2]
      by_cases later : target ∈ rest
      · have more := List.count_pos_iff.mpr later
        rw [List.dedup_cons_of_mem later, if_neg (by omega)]
      · have none := List.count_eq_zero.mpr later
        rw [List.dedup_cons_of_notMem later, List.filter_cons, List.count_cons_self, none]
        simp

end Degrees

/-! ## The queue -/

def remaining (edges : List Edge) (done : List String) (id : String) : Nat :=
  edges.countP fun e => e.target = id ∧ e.source ∉ done

theorem remaining_nil (edges : List Edge) (id : String) :
    remaining edges [] id = (edges.map (·.target)).count id := by
  simp [remaining, List.count, List.countP_map, Function.comp_def, BEq.beq]

/-- Handing out one more node passes the edges out of it. -/
theorem remaining_snoc (edges : List Edge) (done : List String) {id : String} (new : id ∉ done)
    (other : String) :
    remaining edges done other =
      remaining edges (done ++ [id]) other + (successors edges id).count other := by
  unfold remaining successors
  induction edges with
  | nil => simp
  | cons e rest ih =>
      simp only [List.countP_cons, List.filter_cons, decide_eq_true_eq, ih]
      by_cases hs : e.source = id
      · subst hs
        by_cases ht : e.target = other
        · simp [ht, new]
          omega
        · simp [ht]
      · simp only [hs, List.mem_append, List.mem_singleton, or_false, if_false]
        omega

theorem remaining_eq_zero_iff {edges : List Edge} {done : List String} {id : String} :
    remaining edges done id = 0 ↔ predecessors edges id ⊆ done := by
  unfold remaining
  rw [List.countP_eq_zero]
  constructor
  · intro none a ha
    obtain ⟨e, he, hs, ht⟩ := mem_predecessors.mp ha
    have := none e he
    simp only [ht, true_and, decide_eq_true_eq, not_not] at this
    exact hs ▸ this
  · intro all e he
    simp only [decide_eq_true_eq, not_and, not_not]
    intro ht
    exact all (mem_predecessors.mpr ⟨e, he, rfl, ht⟩)

/-- What the queue and the table of degrees say after some nodes have been handed out. -/
structure Queued (ids : List String) (edges : List Edge) (done : List String)
    (degrees : Degrees) (queue : List String) : Prop where
  nodup : (done ++ queue).Nodup
  left : ∀ id, degrees.left id = remaining edges done id
  ready : ∀ id, id ∈ done ++ queue ↔ id ∈ ids ∧ remaining edges done id = 0

variable {ids : List String} {edges : List Edge}

theorem queued_start (unique : ids.Nodup) (known : ∀ e ∈ edges, e.target ∈ ids) :
    Queued ids edges [] (degreesOf ids (edges.map (·.target)))
      (ids.filter fun id => (edges.map (·.target)).count id = 0) := by
  refine ⟨?_, ?_, ?_⟩
  · exact unique.filter _
  · intro id
    unfold degreesOf Degrees.left
    rw [lookup_tabulated (fun id => id), List.map_id', remaining_nil]
    split
    · rfl
    · rename_i absent
      symm
      rw [Option.getD_none, List.count_eq_zero]
      intro mem
      obtain ⟨e, he, rfl⟩ := List.mem_map.mp mem
      exact absent (known e he)
  · intro id
    simp [remaining_nil]

theorem Queued.new {done queue : List String} {degrees : Degrees} {id : String}
    (h : Queued ids edges done degrees (id :: queue)) : id ∉ done := by
  have distinct := h.nodup
  rw [List.nodup_append] at distinct
  exact fun mem => distinct.2.2 id mem id List.mem_cons_self rfl

theorem Queued.enough {done queue : List String} {degrees : Degrees} {id : String}
    (h : Queued ids edges done degrees (id :: queue)) (other : String) :
    (successors edges id).count other ≤ degrees.left other := by
  rw [h.left, remaining_snoc edges done h.new]
  omega

theorem Queued.step {done queue : List String} {degrees : Degrees} {id : String}
    (known : ∀ e ∈ edges, e.target ∈ ids) (h : Queued ids edges done degrees (id :: queue)) :
    Queued ids edges (done ++ [id]) (degrees.release (successors edges id)).1
      (queue ++ (degrees.release (successors edges id)).2) := by
  have split : ∀ other, remaining edges done other =
      remaining edges (done ++ [id]) other + (successors edges id).count other :=
    remaining_snoc edges done h.new
  have released := degrees.release_eq _ h.enough
  have mem : ∀ other, other ∈ (degrees.release (successors edges id)).2 ↔
      0 < (successors edges id).count other ∧ remaining edges (done ++ [id]) other = 0 := by
    intro other
    rw [released, List.mem_filter, List.mem_dedup, decide_eq_true_eq, List.count_pos_iff, h.left,
      split]
    refine and_congr_right fun _ => ?_
    omega
  have regroup : done ++ [id] ++ (queue ++ (degrees.release (successors edges id)).2) =
      done ++ id :: queue ++ (degrees.release (successors edges id)).2 := by
    simp
  refine ⟨?_, ?_, ?_⟩
  · rw [regroup, List.nodup_append]
    refine ⟨h.nodup, ?_, ?_⟩
    · rw [released]
      exact (List.nodup_dedup _).filter _
    · -- what is already queued has no edge left to pass
      rintro other old _ again rfl
      have passed := ((h.ready other).mp old).2
      have positive := ((mem other).mp again).1
      have := split other
      omega
  · intro other
    rw [Degrees.left_release, h.left, split]
    omega
  · intro other
    rw [regroup, List.mem_append, h.ready, mem, split other]
    constructor
    · rintro (⟨inside, none⟩ | ⟨target, none⟩)
      · exact ⟨inside, by omega⟩
      · refine ⟨?_, none⟩
        obtain ⟨e, he, -, ht⟩ := mem_successors.mp (List.count_pos_iff.mp target)
        exact ht ▸ known e he
    · rintro ⟨inside, none⟩
      by_cases target : 0 < (successors edges id).count other
      · exact .inr ⟨target, none⟩
      · exact .inl ⟨inside, by omega⟩

/-- A run of the queue ends with an empty queue, and has kept predecessors first. -/
theorem Queued.drain {done queue : List String} {degrees : Degrees}
    (known : ∀ e ∈ edges, e.target ∈ ids) (h : Queued ids edges done degrees queue) :
    (∃ rest, Queued ids edges (done ++ drain (successors edges) degrees queue) rest []) ∧
      Sequenced (predecessors edges) done (drain (successors edges) degrees queue) := by
  fun_induction Graph.drain (successors edges) degrees queue generalizing done with
  | case1 degrees => exact ⟨⟨degrees, by simpa using h⟩, trivial⟩
  | case2 degrees id queue ih =>
      obtain ⟨⟨rest, last⟩, later⟩ := ih (h.step known)
      refine ⟨⟨rest, by simpa using last⟩, ?_, later⟩
      exact remaining_eq_zero_iff.mp ((h.ready id).mp (by simp)).2

/-! ## Execution order -/

theorem sequenced_orderOf (unique : ids.Nodup) (known : ∀ e ∈ edges, e.target ∈ ids) :
    Sequenced (predecessors edges) [] (orderOf ids (edges.map (·.target)) (successors edges)) :=
  ((queued_start unique known).drain known).2

theorem nodup_orderOf (unique : ids.Nodup) (known : ∀ e ∈ edges, e.target ∈ ids) :
    (orderOf ids (edges.map (·.target)) (successors edges)).Nodup := by
  obtain ⟨rest, last⟩ := ((queued_start unique known).drain known).1
  simpa [orderOf] using last.nodup

theorem mem_orderOf_iff (unique : ids.Nodup) (known : ∀ e ∈ edges, e.target ∈ ids)
    (id : String) :
    id ∈ orderOf ids (edges.map (·.target)) (successors edges) ↔
      id ∈ ids ∧ predecessors edges id ⊆ orderOf ids (edges.map (·.target)) (successors edges) := by
  obtain ⟨rest, last⟩ := ((queued_start unique known).drain known).1
  rw [← remaining_eq_zero_iff]
  simpa [orderOf] using last.ready id

/-- Without a closed walk, going back along edges comes to an end. -/
theorem wellFounded_of_not_cyclic (acyclic : ¬ Cyclic edges) (ids : List String) :
    WellFounded fun a b : { id // id ∈ ids } => Relation.TransGen (Arrow edges) a.1 b.1 := by
  have trans : IsTrans { id // id ∈ ids } fun a b => Relation.TransGen (Arrow edges) a.1 b.1 :=
    ⟨fun _ _ _ first second => first.trans second⟩
  have irrefl : Std.Irrefl fun a b : { id // id ∈ ids } =>
      Relation.TransGen (Arrow edges) a.1 b.1 :=
    ⟨fun a walk => acyclic ⟨a.1, walk⟩⟩
  exact Finite.wellFounded_of_trans_of_irrefl _

theorem orderOf_perm (unique : ids.Nodup) (sources : ∀ e ∈ edges, e.source ∈ ids)
    (targets : ∀ e ∈ edges, e.target ∈ ids) (acyclic : ¬ Cyclic edges) :
    (orderOf ids (edges.map (·.target)) (successors edges)).Perm ids := by
  rw [List.perm_ext_iff_of_nodup (nodup_orderOf unique targets) unique]
  intro id
  constructor
  · exact fun mem => ((mem_orderOf_iff unique targets id).mp mem).1
  · intro mem
    suffices ∀ node : { id // id ∈ ids },
        node.1 ∈ orderOf ids (edges.map (·.target)) (successors edges) from this ⟨id, mem⟩
    intro node
    induction node using (wellFounded_of_not_cyclic acyclic ids).induction with
    | _ node ih =>
        refine (mem_orderOf_iff unique targets node.1).mpr ⟨node.2, fun a ha => ?_⟩
        have step : Arrow edges a node.1 := mem_predecessors.mp ha
        obtain ⟨e, he, hs, -⟩ := step
        exact ih ⟨a, hs ▸ sources e he⟩ (.single (mem_predecessors.mp ha))

end Graph

end Flowgraph
