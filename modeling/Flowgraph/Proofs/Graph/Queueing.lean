import Flowgraph.Proofs.Graph.Compile

/-!
# First in, first out

Nodes are queued when the last edge into them is passed, and edges are passed in
the order in which their sources are handed out.  So the order of the nodes can
be read off the edges: it goes by the turn of that last edge, and it never comes
back from longer walks to shorter ones.
-/

namespace Flowgraph

namespace Graph

variable {ids order rest : List String} {edges : List Edge}

/-! ## Turns -/

def places (edges : List Edge) (a b : String) : Set ℕ :=
  { j | ∃ e, edges[j]? = some e ∧ e.source = a ∧ e.target = b }

/--
When the edges into a node are passed: for each of them the place of its source
in an order of the nodes, and then its own place among the edges.
-/
def passings (edges : List Edge) (order : List String) (id : String) : Set (ℕ ×ₗ ℕ) :=
  { p | ∃ e, order[(ofLex p).1]? = some e.source ∧ edges[(ofLex p).2]? = some e ∧ e.target = id }

theorem exists_place {a b : String} (arrow : Arrow edges a b) :
    ∃ j, IsGreatest (places edges a b) j := by
  obtain ⟨e, he, hs, ht⟩ := arrow
  obtain ⟨j, hj⟩ := List.mem_iff_getElem?.mp he
  have bounded : BddAbove (places edges a b) := by
    refine ⟨edges.length, ?_⟩
    rintro i ⟨e, hi, -⟩
    exact (List.getElem?_eq_some_iff.mp hi).1.le
  exact ⟨_, Nat.sSup_mem ⟨j, e, hj, hs, ht⟩ bounded, fun _ mem => le_csSup bounded mem⟩

theorem succ_mem_places {e : Edge} {a b : String} {j : ℕ} :
    j + 1 ∈ places (e :: edges) a b ↔ j ∈ places edges a b := by
  simp [places]

theorem isGreatest_places_cons {e : Edge} {a b : String} {j : ℕ}
    (h : IsGreatest (places edges a b) j) : IsGreatest (places (e :: edges) a b) (j + 1) := by
  refine ⟨succ_mem_places.mpr h.1, ?_⟩
  intro i mem
  cases i with
  | zero => omega
  | succ i => exact Nat.succ_le_succ (h.2 (succ_mem_places.mp mem))

/-- The targets of a node, each taken at the last edge to it, stand in the order of these edges. -/
theorem pairwise_dedup_successors (edges : List Edge) (u : String) :
    (successors edges u).dedup.Pairwise fun a b =>
      ∃ i j, IsGreatest (places edges u a) i ∧ IsGreatest (places edges u b) j ∧ i < j := by
  induction edges with
  | nil => exact .nil
  | cons e edges ih =>
      have later : (successors edges u).dedup.Pairwise fun a b => ∃ i j,
          IsGreatest (places (e :: edges) u a) i ∧ IsGreatest (places (e :: edges) u b) j ∧
            i < j := by
        refine ih.imp fun ⟨i, j, hi, hj, lt⟩ => ?_
        exact ⟨i + 1, j + 1, isGreatest_places_cons hi, isGreatest_places_cons hj, by omega⟩
      by_cases out : e.source = u
      · have split : successors (e :: edges) u = e.target :: successors edges u := by
          simp [successors, out]
        rw [split]
        by_cases again : e.target ∈ successors edges u
        · rw [List.dedup_cons_of_mem again]
          exact later
        · rw [List.dedup_cons_of_notMem again]
          refine List.pairwise_cons.mpr ⟨fun b mem => ?_, later⟩
          obtain ⟨j, hj⟩ := exists_place (mem_successors.mp (List.mem_dedup.mp mem))
          refine ⟨0, j + 1, ⟨⟨e, rfl, out, rfl⟩, ?_⟩, isGreatest_places_cons hj, by omega⟩
          intro i place
          cases i with
          | zero => exact le_rfl
          | succ i =>
              obtain ⟨e', he, hs, ht⟩ := succ_mem_places.mp place
              exact absurd (mem_successors.mpr ⟨e', List.mem_of_getElem? he, hs, ht⟩) again
      · have same : successors (e :: edges) u = successors edges u := by
          simp [successors, out]
        rw [same]
        exact later

/-- Once all predecessors of a node are handed out, no further node passes an edge into it. -/
theorem passings_snoc {done : List String} {u id : String} (new : u ∉ done)
    (before : predecessors edges id ⊆ done) :
    passings edges (done ++ [u]) id = passings edges done id := by
  ext p
  refine exists_congr fun e => and_congr_left fun ⟨he, ht⟩ => ?_
  have known : e.source ∈ done :=
    before (mem_predecessors.mpr ⟨e, List.mem_of_getElem? he, rfl, ht⟩)
  constructor
  · intro place
    by_cases inside : (ofLex p).1 < done.length
    · rwa [List.getElem?_append_left inside] at place
    · rw [List.getElem?_append_right (by omega)] at place
      have same := List.mem_singleton.mp (List.mem_of_getElem? place)
      exact absurd (same ▸ known) new
  · intro place
    rwa [List.getElem?_append_left (List.getElem?_eq_some_iff.mp place).1]

/-- Of the edges into a node, those out of the node handed out last are passed last. -/
theorem isGreatest_passings {done : List String} {u id : String} {j : ℕ} (new : u ∉ done)
    (last : IsGreatest (places edges u id) j) :
    IsGreatest (passings edges (done ++ [u]) id) (toLex (done.length, j)) := by
  obtain ⟨⟨e, he, rfl, ht⟩, bound⟩ := last
  refine ⟨⟨e, by simp, he, ht⟩, ?_⟩
  rintro p ⟨e', place, he', ht'⟩
  rw [Prod.Lex.le_iff]
  have inside := (List.getElem?_eq_some_iff.mp place).1
  rw [List.length_append, List.length_singleton] at inside
  rcases Nat.lt_or_eq_of_le (Nat.le_of_lt_succ inside) with lt | eq
  · exact .inl lt
  · rw [eq, List.getElem?_append_right le_rfl] at place
    have same : e'.source = e.source := by simpa using place.symm
    exact .inr ⟨eq, bound ⟨e', he', same, ht'⟩⟩

/-- Nodes with edges into them that stand in the order in which the last of these are passed. -/
structure InTurn (edges : List Edge) (order ids : List String) : Prop where
  passed : ∀ id ∈ ids, ∃ p, IsGreatest (passings edges order id) p
  sorted : ids.Pairwise fun a b => ∃ p q,
    IsGreatest (passings edges order a) p ∧ IsGreatest (passings edges order b) q ∧ p < q

theorem InTurn.snoc {done : List String} {u : String} (h : InTurn edges done ids) (new : u ∉ done)
    (before : ∀ id ∈ ids, predecessors edges id ⊆ done) : InTurn edges (done ++ [u]) ids := by
  have same : ∀ id ∈ ids, passings edges (done ++ [u]) id = passings edges done id :=
    fun id mem => passings_snoc new (before id mem)
  constructor
  · intro id mem
    rw [same id mem]
    exact h.passed id mem
  · refine h.sorted.imp_of_mem fun {a b} ha hb turns => ?_
    rw [same a ha, same b hb]
    exact turns

/-- The nodes that become ready with the last node handed out stand in turn. -/
theorem inTurn_released {done released : List String} {u : String} (new : u ∉ done)
    (sublist : released.Sublist (successors edges u).dedup) :
    InTurn edges (done ++ [u]) released := by
  constructor
  · intro id mem
    have arrow : Arrow edges u id := mem_successors.mp (List.mem_dedup.mp (sublist.subset mem))
    obtain ⟨j, last⟩ := exists_place arrow
    exact ⟨_, isGreatest_passings new last⟩
  · refine (List.Pairwise.sublist sublist (pairwise_dedup_successors edges u)).imp ?_
    rintro a b ⟨i, j, hi, hj, lt⟩
    refine ⟨_, _, isGreatest_passings new hi, isGreatest_passings new hj, ?_⟩
    exact Prod.Lex.lt_iff.mpr (.inr ⟨rfl, lt⟩)

theorem InTurn.append {done more : List String} {u : String} (h : InTurn edges done ids)
    (new : u ∉ done) (before : ∀ id ∈ ids, predecessors edges id ⊆ done)
    (sublist : more.Sublist (successors edges u).dedup) :
    InTurn edges (done ++ [u]) (ids ++ more) := by
  have kept := h.snoc new before
  have added := inTurn_released new sublist
  constructor
  · intro id mem
    exact (List.mem_append.mp mem).elim (kept.passed id) (added.passed id)
  · refine List.pairwise_append.mpr ⟨kept.sorted, added.sorted, fun a ha b hb => ?_⟩
    obtain ⟨p, hp⟩ := h.passed a ha
    obtain ⟨j, last⟩ := exists_place (mem_successors.mp (List.mem_dedup.mp (sublist.subset hb)))
    refine ⟨p, _, passings_snoc new (before a ha) ▸ hp, isGreatest_passings new last, ?_⟩
    -- the edges into the earlier node have been passed before
    obtain ⟨e, place, -⟩ := hp.1
    exact Prod.Lex.lt_iff.mpr (.inl (List.getElem?_eq_some_iff.mp place).1)

/-- What is queued behind the first nodes is handed out in turn. -/
theorem Queued.inTurn {done queue roots : List String} {degrees : Degrees}
    (known : ∀ e ∈ edges, e.target ∈ ids) (h : Queued ids edges done degrees queue)
    (split : done ++ queue = roots ++ rest) (turn : InTurn edges done rest) :
    ∃ rest, done ++ Graph.drain (successors edges) degrees queue = roots ++ rest ∧
      InTurn edges (done ++ Graph.drain (successors edges) degrees queue) rest := by
  fun_induction Graph.drain (successors edges) degrees queue generalizing done rest with
  | case1 degrees => exact ⟨rest, split, by simpa using turn⟩
  | case2 degrees id queue ih =>
      have before : ∀ other ∈ rest, predecessors edges other ⊆ done := by
        intro other mem
        have queued : other ∈ done ++ id :: queue := split ▸ List.mem_append_right roots mem
        exact remaining_eq_zero_iff.mp ((h.ready other).mp queued).2
      have sublist : ((degrees.release (successors edges id)).2).Sublist
          (successors edges id).dedup := by
        rw [degrees.release_eq _ h.enough]
        exact List.filter_sublist
      have next : done ++ [id] ++ (queue ++ (degrees.release (successors edges id)).2) =
          roots ++ (rest ++ (degrees.release (successors edges id)).2) := by
        calc
          _ = done ++ id :: queue ++ (degrees.release (successors edges id)).2 := by simp
          _ = roots ++ (rest ++ (degrees.release (successors edges id)).2) := by
            rw [split, List.append_assoc]
      simpa using ih (h.step known) next (turn.append h.new before sublist)

/-- The execution order is that of the nodes without incoming edges, and then by turn. -/
theorem orderOf_inTurn (unique : ids.Nodup) (known : ∀ e ∈ edges, e.target ∈ ids) :
    ∃ rest, orderOf ids (edges.map (·.target)) (successors edges) =
        ids.filter (fun id => predecessors edges id = []) ++ rest ∧
      InTurn edges (orderOf ids (edges.map (·.target)) (successors edges)) rest := by
  have roots : (ids.filter fun id => (edges.map (·.target)).count id = 0) =
      ids.filter fun id => predecessors edges id = [] := by
    refine List.filter_congr fun id _ => ?_
    rw [decide_eq_decide, ← remaining_nil, remaining_eq_zero_iff, List.subset_nil]
  have none : InTurn edges [] [] := ⟨by simp, .nil⟩
  rw [← roots]
  exact (queued_start unique known).inTurn known (by simp) none

/-! ## Lengths of walks -/

inductive Ends (edges : List Edge) : ℕ → String → Prop
  | start (id : String) : Ends edges 0 id
  | step {n : ℕ} {a b : String} (walk : Ends edges n a) (arrow : Arrow edges a b) :
      Ends edges (n + 1) b

theorem Sequenced.exists_before {needs : String → List String} {a b : String} {i : ℕ}
    (h : Sequenced needs [] order) (place : order[i]? = some b) (need : a ∈ needs b) :
    ∃ j < i, order[j]? = some a := by
  obtain ⟨inside, rfl⟩ := List.getElem?_eq_some_iff.mp place
  have split : order = order.take i ++ order[i] :: order.drop (i + 1) := by
    rw [← List.drop_eq_getElem_cons inside, List.take_append_drop]
  have mem : a ∈ order.take i := by
    rw [split] at h
    simpa using h.met need
  obtain ⟨j, hj⟩ := List.mem_iff_getElem?.mp mem
  rw [List.getElem?_take] at hj
  split at hj
  · rename_i lt
    exact ⟨j, lt, hj⟩
  · cases hj

/-- A walk that ends at a node is no longer than what stands before it. -/
theorem Ends.le_place {n i : ℕ} {id : String} (sequenced : Sequenced (predecessors edges) [] order)
    (walk : Ends edges n id) (place : order[i]? = some id) : n ≤ i := by
  induction walk generalizing i with
  | start id => exact Nat.zero_le i
  | step _ arrow ih =>
      obtain ⟨j, lt, before⟩ := sequenced.exists_before place (mem_predecessors.mpr arrow)
      have := ih before
      omega

/-- Behind the first nodes turns do not decrease along the order. -/
theorem InTurn.turn_le {roots : List String} {i j : ℕ} {a b : String}
    (h : InTurn edges order rest) (split : order = roots ++ rest) (le : i ≤ j)
    (ha : order[i]? = some a) (hb : order[j]? = some b) (behind : a ∉ roots) :
    ∃ p q, IsGreatest (passings edges order a) p ∧ IsGreatest (passings edges order b) q ∧
      p ≤ q := by
  have past : roots.length ≤ i := by
    by_contra inside
    rw [split, List.getElem?_append_left (by omega)] at ha
    exact behind (List.mem_of_getElem? ha)
  rcases Nat.lt_or_eq_of_le le with lt | rfl
  · have ha' : rest[i - roots.length]? = some a := by
      rwa [split, List.getElem?_append_right past] at ha
    have hb' : rest[j - roots.length]? = some b := by
      rwa [split, List.getElem?_append_right (by omega)] at hb
    obtain ⟨hi, rfl⟩ := List.getElem?_eq_some_iff.mp ha'
    obtain ⟨hj, rfl⟩ := List.getElem?_eq_some_iff.mp hb'
    obtain ⟨p, q, hp, hq, lt⟩ := List.pairwise_iff_getElem.mp h.sorted _ _ hi hj (by omega)
    exact ⟨p, q, hp, hq, lt.le⟩
  · rw [ha, Option.some.injEq] at hb
    subst hb
    have mem : a ∈ roots ++ rest := split ▸ List.mem_of_getElem? ha
    obtain ⟨p, hp⟩ := h.passed a ((List.mem_append.mp mem).resolve_left behind)
    exact ⟨p, p, hp, hp, le_rfl⟩

/-- A walk as long as one that ends at a node ends at each node after it. -/
theorem InTurn.ends_of_le {roots : List String} (h : InTurn edges order rest)
    (split : order = roots ++ rest) (free : ∀ id ∈ roots, predecessors edges id = [])
    (sequenced : Sequenced (predecessors edges) [] order) {n : ℕ} {a b : String} {i j : ℕ}
    (le : i ≤ j) (ha : order[i]? = some a) (hb : order[j]? = some b) (walk : Ends edges n a) :
    Ends edges n b := by
  induction n generalizing a b i j with
  | zero => exact .start b
  | succ n ih =>
      cases walk with
      | @step _ a' _ walk arrow =>
          have before : a' ∈ predecessors edges a := mem_predecessors.mpr arrow
          have behind : a ∉ roots := fun root => by simp [free a root] at before
          obtain ⟨p, q, hp, hq, turn⟩ := h.turn_le split le ha hb behind
          -- the last predecessor of the later node stands no earlier than any of the other's
          obtain ⟨i', -, place⟩ := sequenced.exists_before ha before
          obtain ⟨e, he, rfl, ht⟩ := arrow
          obtain ⟨k, hk⟩ := List.mem_iff_getElem?.mp he
          have passed : toLex (i', k) ∈ passings edges order a := ⟨e, place, hk, ht⟩
          have first : i' ≤ (ofLex q).1 := Prod.Lex.monotone_fst_ofLex ((hp.2 passed).trans turn)
          obtain ⟨e', place', he', rfl⟩ := hq.1
          exact .step (ih first place place' walk) ⟨e', List.mem_of_getElem? he', rfl, rfl⟩

/-- Length of a longest walk that ends at a node. -/
noncomputable def depth (edges : List Edge) (id : String) : ℕ :=
  sSup { n | Ends edges n id }

theorem Ends.bddAbove {id : String} (sequenced : Sequenced (predecessors edges) [] order)
    (mem : id ∈ order) : BddAbove { n | Ends edges n id } := by
  obtain ⟨i, place⟩ := List.mem_iff_getElem?.mp mem
  exact ⟨i, fun n walk => walk.le_place sequenced place⟩

theorem isGreatest_depth {id : String} (sequenced : Sequenced (predecessors edges) [] order)
    (mem : id ∈ order) : IsGreatest { n | Ends edges n id } (depth edges id) := by
  have bounded := Ends.bddAbove sequenced mem
  exact ⟨Nat.sSup_mem ⟨0, .start id⟩ bounded, fun _ walk => le_csSup bounded walk⟩

/-! ## The order of a graph -/

/--
An order of the nodes of a graph in which no node stands before one where only
shorter walks end, the nodes without incoming edges come first and as they are
given, and the others come by the turn of the last edge into them.
-/
structure FirstInFirstOut (ids : List String) (edges : List Edge) (order : List String) :
    Prop where
  levels : ∃ depth : String → ℕ, (∀ id ∈ order, IsGreatest { n | Ends edges n id } (depth id)) ∧
    order.Pairwise fun a b => depth a ≤ depth b
  turns : ∃ rest, order = ids.filter (fun id => predecessors edges id = []) ++ rest ∧
    (∀ id ∈ rest, predecessors edges id ≠ []) ∧
    ∃ turn : String → ℕ ×ₗ ℕ, (∀ id ∈ rest, IsGreatest (passings edges order id) (turn id)) ∧
      rest.Pairwise fun a b => turn a < turn b

theorem firstInFirstOut_orderOf (unique : ids.Nodup) (known : ∀ e ∈ edges, e.target ∈ ids) :
    FirstInFirstOut ids edges (orderOf ids (edges.map (·.target)) (successors edges)) := by
  obtain ⟨rest, split, inTurn⟩ := orderOf_inTurn unique known
  have sequenced := sequenced_orderOf unique known
  generalize orderOf ids (edges.map (·.target)) (successors edges) = order at *
  constructor
  · refine ⟨depth edges, fun id mem => isGreatest_depth sequenced mem, ?_⟩
    rw [List.pairwise_iff_getElem]
    intro i j hi hj lt
    have free : ∀ id ∈ ids.filter (fun id => predecessors edges id = []),
        predecessors edges id = [] := by simp
    have reach := (isGreatest_depth sequenced (List.getElem_mem hi)).1
    refine (isGreatest_depth sequenced (List.getElem_mem hj)).2 ?_
    exact inTurn.ends_of_le split free sequenced lt.le (List.getElem?_eq_getElem hi)
      (List.getElem?_eq_getElem hj) reach
  · choose! turn passed using inTurn.passed
    refine ⟨rest, split, fun id mem none => ?_, turn, passed, ?_⟩
    · obtain ⟨e, -, he, ht⟩ := (passed id mem).1
      have before : e.source ∈ predecessors edges id :=
        mem_predecessors.mpr ⟨e, List.mem_of_getElem? he, rfl, ht⟩
      simp [none] at before
    · refine inTurn.sorted.imp_of_mem fun {a b} ha hb ⟨p, q, hp, hq, lt⟩ => ?_
      rwa [(passed a ha).unique hp, (passed b hb).unique hq]

variable {nodes : List Node}

theorem of_sort?_eq_some {order : List Node} (unique : (nodes.map (·.id)).Nodup)
    (sources : ∀ e ∈ edges, e.source ∈ nodes.map (·.id))
    (targets : ∀ e ∈ edges, e.target ∈ nodes.map (·.id))
    (sorted : sort? nodes edges (Index.build nodes Edge.source edges) = some order) :
    order.Perm nodes ∧
      order.map (·.id) = orderOf (nodes.map (·.id)) (edges.map (·.target)) (successors edges) := by
  rw [sort?, Index.targets_build sources] at sorted
  split at sorted
  · rename_i all
    have inside : orderOf (nodes.map (·.id)) (edges.map (·.target)) (successors edges) ⊆
        nodes.map (·.id) :=
      fun id mem => ((mem_orderOf_iff unique targets id).mp mem).1
    have perm := (List.subperm_of_subset (nodup_orderOf unique targets) inside).perm_of_length_le
      (by rw [all, List.length_map])
    obtain ⟨permNodes, ids⟩ := filterMap_find?_perm unique perm
    cases sorted
    exact ⟨permNodes, ids⟩
  · cases sorted

theorem not_cyclic_of_sequenced (sequenced : Sequenced (predecessors edges) [] order)
    (all : ∀ e ∈ edges, e.target ∈ order) : ¬ Cyclic edges := by
  rintro ⟨id, walk⟩
  have grounded : ∀ id ∈ order, Grounded (fun b a => Arrow edges a b) id := by
    refine sequenced.induction fun id _ before => grounded_of_next fun a arrow => ?_
    exact before a (mem_predecessors.mpr arrow)
  obtain ⟨_, -, e, he, -, rfl⟩ := Relation.TransGen.tail'_iff.mp walk
  exact (grounded _ (all e he)).not_closed (Relation.transGen_swap.mp walk)

theorem exists_sort?_iff (unique : (nodes.map (·.id)).Nodup)
    (sources : ∀ e ∈ edges, e.source ∈ nodes.map (·.id))
    (targets : ∀ e ∈ edges, e.target ∈ nodes.map (·.id)) :
    (∃ order, sort? nodes edges (Index.build nodes Edge.source edges) = some order) ↔
      ¬ Cyclic edges := by
  constructor
  · rintro ⟨order, sorted⟩
    obtain ⟨perm, ids⟩ := of_sort?_eq_some unique sources targets sorted
    refine not_cyclic_of_sequenced (sequenced_orderOf unique targets) fun e he => ?_
    rw [← ids]
    exact (perm.map (·.id)).mem_iff.mpr (targets e he)
  · intro acyclic
    obtain ⟨order, sorted, -⟩ := sort?_of_acyclic unique sources targets acyclic
    exact ⟨order, sorted⟩

/-- A compilation that searches for no closed path fails to order a graph whose edges fit. -/
theorem unsearched_failsWith_iff (catalog : Catalog) (unique : (nodes.map (·.id)).Nodup)
    (sources : ∀ e ∈ edges, e.source ∈ nodes.map (·.id))
    (targets : ∀ e ∈ edges, e.target ∈ nodes.map (·.id)) :
    FailsWith ["TOPOLOGICAL_SORT_FAILED"] (compileWith (fun _ _ => []) catalog nodes edges) ↔
      (∀ e ∈ edges, Fits catalog nodes e) ∧ Cyclic edges := by
  have none := repeatedIds_nodes_eq_nil_iff.mpr (not_repeating_iff.mpr unique)
  by_cases fit : ∀ e ∈ edges, Fits catalog nodes e
  · have sound := (edgeFailures_eq_nil_iff unique edges).mpr fit
    have ordered := exists_sort?_iff unique sources targets
    simp only [compileWith, none, sound, List.isEmpty_nil, Bool.not_true, Bool.false_eq_true,
      if_false]
    cases sorted : sort? nodes edges (Index.build nodes Edge.source edges) with
    | none =>
        have cyclic : Cyclic edges := by simpa [sorted] using ordered
        refine iff_of_true ?_ ⟨fit, cyclic⟩
        simp [failsWith_failures_iff, Failure.code]
    | some order =>
        have acyclic : ¬ Cyclic edges := ordered.mp ⟨order, sorted⟩
        simp [not_failsWith_ok, acyclic]
  · refine iff_of_false ?_ fun both => fit both.1
    have some := mt (edgeFailures_eq_nil_iff unique edges).mp fit
    have checked := findings catalog unique edges
    simp only [compileWith, none, List.isEmpty_nil, Bool.not_true, Bool.false_eq_true, if_false]
    generalize edgeFailures catalog nodes edges = result at checked some
    cases checked with
    | unreadable => exact not_failsWith_fault
    | found readable each =>
        rename_i failures
        have found : failures ≠ [] := fun nothing => some (congrArg Except.ok nothing)
        simp only [List.isEmpty_eq_false_iff.mpr found, Bool.not_false, if_true]
        exact (reported_failsWith found each).disjoint _ (by simp)

/--
On a graph with distinct ids and known ends of edges the nodes are ordered
exactly if no walk is closed, which is when no closed path is found.  Without
the search for closed paths, a compilation fails to order the nodes of exactly
those graphs with a closed walk whose edges fit.  Every order that is returned
is first in, first out.
-/
theorem sort?_spec (unique : (nodes.map (·.id)).Nodup)
    (sources : ∀ e ∈ edges, e.source ∈ nodes.map (·.id))
    (targets : ∀ e ∈ edges, e.target ∈ nodes.map (·.id)) :
    let outgoing := Index.build nodes Edge.source edges
    ((∃ order, sort? nodes edges outgoing = some order) ↔ ¬ Cyclic edges) ∧
    (closedPaths nodes outgoing = [] ↔ ∃ order, sort? nodes edges outgoing = some order) ∧
    (∀ catalog,
      FailsWith ["TOPOLOGICAL_SORT_FAILED"] (compileWith (fun _ _ => []) catalog nodes edges) ↔
        (∀ e ∈ edges, Fits catalog nodes e) ∧ Cyclic edges) ∧
    ∀ order, sort? nodes edges outgoing = some order →
      order.Perm nodes ∧ FirstInFirstOut (nodes.map (·.id)) edges (order.map (·.id)) := by
  intro outgoing
  have ordered := exists_sort?_iff unique sources targets
  refine ⟨ordered, ?_, fun catalog => unsearched_failsWith_iff catalog unique sources targets, ?_⟩
  · rw [ordered]
    exact closedPaths_eq_nil_iff sources targets
  · intro order sorted
    obtain ⟨perm, ids⟩ := of_sort?_eq_some unique sources targets sorted
    refine ⟨perm, ?_⟩
    rw [ids]
    exact firstInFirstOut_orderOf unique targets

def fork : List Node × List Edge :=
  ([⟨"scope", "OSCILLOSCOPE", [], none⟩, ⟨"left", "SUMMER", [], none⟩,
    ⟨"right", "SUMMER", [], none⟩, ⟨"osc", "SINE_GEN", [], none⟩],
   [⟨"e1", "right", "scope", none, none⟩, ⟨"e2", "osc", "left", none, none⟩,
    ⟨"e3", "osc", "right", none, none⟩, ⟨"e4", "left", "scope", none, none⟩,
    ⟨"e5", "osc", "left", none, none⟩])

theorem sort?_fork :
    sort? fork.1 fork.2 (Index.build fork.1 Edge.source fork.2) =
      some [⟨"osc", "SINE_GEN", [], none⟩, ⟨"right", "SUMMER", [], none⟩,
        ⟨"left", "SUMMER", [], none⟩, ⟨"scope", "OSCILLOSCOPE", [], none⟩] := by
  cbv

theorem sort?_spec_fork :
    (fork.1.map (·.id)).Nodup ∧ (∀ e ∈ fork.2, e.source ∈ fork.1.map (·.id)) ∧
    (∀ e ∈ fork.2, e.target ∈ fork.1.map (·.id)) ∧ ¬ Cyclic fork.2 ∧
    FirstInFirstOut ["scope", "left", "right", "osc"] fork.2 ["osc", "right", "left", "scope"] := by
  have unique : (fork.1.map (·.id)).Nodup := by decide
  have sources : ∀ e ∈ fork.2, e.source ∈ fork.1.map (·.id) := by decide
  have targets : ∀ e ∈ fork.2, e.target ∈ fork.1.map (·.id) := by decide
  obtain ⟨ordered, -, -, fifo⟩ := sort?_spec unique sources targets
  exact ⟨unique, sources, targets, ordered.mp ⟨_, sort?_fork⟩, (fifo _ sort?_fork).2⟩

def mismatchedLoop : List Node × List Edge :=
  ([⟨"h", "HILBERT_TRANSFORMER", [], none⟩], [⟨"h->h", "h", "h", none, none⟩])

/-- The signals that an edge joins are checked before the nodes are ordered. -/
theorem unsearched_mismatchedLoop :
    (mismatchedLoop.1.map (·.id)).Nodup ∧
    (∀ e ∈ mismatchedLoop.2, e.source ∈ mismatchedLoop.1.map (·.id)) ∧
    (∀ e ∈ mismatchedLoop.2, e.target ∈ mismatchedLoop.1.map (·.id)) ∧
    Cyclic mismatchedLoop.2 ∧
    ¬ FailsWith ["TOPOLOGICAL_SORT_FAILED"]
      (compileWith (fun _ _ => []) .builtin mismatchedLoop.1 mismatchedLoop.2) ∧
    FailsWith ["TYPE_MISMATCH"]
      (compileWith (fun _ _ => []) .builtin mismatchedLoop.1 mismatchedLoop.2) := by
  have failed : compileWith (fun _ _ => []) .builtin mismatchedLoop.1 mismatchedLoop.2 =
      .error (.failures [.typeMismatch ⟨"h->h", "h", "h", none, none⟩
        ⟨"h", "HILBERT_TRANSFORMER", [], none⟩ ⟨"h", "HILBERT_TRANSFORMER", [], none⟩
        (some .complex) (some .real)]) := by rfl
  have cyclic : Cyclic mismatchedLoop.2 := ⟨"h", .single ⟨_, List.mem_singleton_self _, rfl, rfl⟩⟩
  refine ⟨by decide, by decide, by decide, cyclic, ?_, ?_⟩
  · rw [failed, failsWith_failures_iff]
    simp [Failure.code]
  · rw [failed, failsWith_failures_iff]
    simp [Failure.code]

end Graph

end Flowgraph
