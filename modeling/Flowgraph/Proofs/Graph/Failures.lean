import Flowgraph.Proofs.Graph.Compile

/-!
# The list of failures is complete

Every id used twice and every edge that does not fit is reported, once and in
its place, and nothing is reported beside it.  A failure found at one stage of a
compilation is never listed with a failure found at another.
-/

namespace Flowgraph

namespace Graph

variable {catalog : Catalog} {nodes : List Node} {edges : List Edge}

/-! ## Ids used twice -/

/-- One id has occurred twice in a list when another has not. -/
def TwiceBefore (ids : List String) (a b : String) : Prop :=
  ∃ first rest, ids = first ++ rest ∧ 2 ≤ first.count a ∧ first.count b < 2

theorem TwiceBefore.ne {ids : List String} {a b : String} (h : TwiceBefore ids a b) : a ≠ b := by
  obtain ⟨first, rest, -, twice, once⟩ := h
  rintro rfl
  omega

theorem count_snoc (ids : List String) (id other : String) :
    (ids ++ [id]).count other = ids.count other + if other = id then 1 else 0 := by
  by_cases same : other = id
  · simp [same]
  · simp [same, Ne.symm same]

/-- What the search for repeated ids remembers of the ids that it has looked at. -/
structure Marked (before seen found : List String) : Prop where
  once : ∀ id, id ∈ seen ↔ 1 ≤ before.count id
  twice : ∀ id, id ∈ found ↔ 2 ≤ before.count id

section

variable {before seen found : List String} {id : String}

theorem marked_nil : Marked [] [] [] :=
  ⟨by simp, by simp⟩

/-- An id is found when it has occurred exactly once before. -/
theorem Marked.second_iff (h : Marked before seen found) :
    (id ∈ seen ∧ id ∉ found) ↔ before.count id = 1 := by
  rw [h.once, h.twice]
  omega

theorem Marked.hit (h : Marked before seen found) (second : before.count id = 1) :
    Marked (before ++ [id]) seen (id :: found) := by
  constructor
  · intro other
    rw [h.once, count_snoc]
    split
    · rename_i same
      rw [same, second]
      omega
    · omega
  · intro other
    rw [List.mem_cons, h.twice, count_snoc]
    split
    · rename_i same
      simp [same, second]
    · rename_i different
      simp [different]

theorem Marked.pass (h : Marked before seen found) (other : before.count id ≠ 1) :
    Marked (before ++ [id]) (id :: seen) found := by
  constructor
  · intro other
    rw [List.mem_cons, h.once, count_snoc]
    split
    · rename_i same
      simp [same]
    · rename_i different
      simp [different]
  · intro other
    rw [h.twice, count_snoc]
    split
    · rename_i same
      rw [same]
      omega
    · omega

/--
What is found after some ids that were looked at before: exactly the ids that
get to their second occurrence, in the order in which they get there.
-/
theorem repeatedIds_spec {ids : List String} (h : Marked before seen found) :
    (∀ id, id ∈ repeatedIds seen found ids ↔
      before.count id < 2 ∧ 2 ≤ (before ++ ids).count id) ∧
      (repeatedIds seen found ids).Pairwise (TwiceBefore (before ++ ids)) := by
  induction ids generalizing before seen found with
  | nil =>
      refine ⟨fun id => ?_, .nil⟩
      simp only [repeatedIds, List.append_nil, List.not_mem_nil, false_iff]
      omega
  | cons id rest ih =>
      have regroup : before ++ id :: rest = before ++ [id] ++ rest := by simp
      rw [regroup, repeatedIds]
      by_cases second : before.count id = 1
      · obtain ⟨mem, order⟩ := ih (h.hit second)
        rw [if_pos (h.second_iff.mpr second)]
        refine ⟨fun other => ?_, List.pairwise_cons.mpr ⟨fun other later => ?_, order⟩⟩
        · rw [List.mem_cons, mem, @List.count_append _ _ other (before ++ [id]), count_snoc]
          split
          · rename_i same
            simp [same, second]
          · rename_i different
            simp [different]
        · -- what is found later has not occurred twice up to here
          refine ⟨before ++ [id], rest, rfl, ?_, ((mem other).mp later).1⟩
          rw [count_snoc, second, if_pos rfl]
      · obtain ⟨mem, order⟩ := ih (h.pass second)
        rw [if_neg (mt h.second_iff.mp second)]
        refine ⟨fun other => ?_, order⟩
        rw [mem, @List.count_append _ _ other (before ++ [id]), count_snoc]
        split
        · rename_i same
          rw [same]
          omega
        · omega

end

/-! ## Stages -/

/-- The stage of a compilation at which a failure is found. -/
def Failure.stage : Failure → Nat
  | duplicateNode _ => 0
  | unknownNode .. | typeMismatch .. => 1
  | cyclic _ => 2
  | unordered => 3

def failuresOf (result : Except Refusal Compiled) : List Failure :=
  match reportOf result with
  | .ok report => report.failures
  | .error _ => []

def failuresAt (stage : Nat) (result : Except Refusal Compiled) : List Failure :=
  (failuresOf result).filter fun f => f.stage = stage

theorem failuresAt_same {stage : Nat} {result : Except Refusal Compiled}
    (all : ∀ f ∈ failuresOf result, f.stage = stage) :
    failuresAt stage result = failuresOf result :=
  List.filter_eq_self.mpr fun f mem => decide_eq_true (all f mem)

theorem failuresAt_other {stage other : Nat} {result : Except Refusal Compiled}
    (all : ∀ f ∈ failuresOf result, f.stage = stage) (differ : stage ≠ other) :
    failuresAt other result = [] := by
  refine List.filter_eq_nil_iff.mpr fun f mem => ?_
  rw [all f mem]
  simpa using differ

theorem Reported.stage {edge : Edge} {failure : Failure}
    (h : Reported catalog nodes edge failure) : failure.stage = 1 := by
  cases h <;> rfl

theorem reported_stage {reported : List Edge} {failures : List Failure}
    (each : List.Forall₂ (Reported catalog nodes) reported failures) :
    ∀ f ∈ failures, f.stage = 1 := by
  intro f mem
  obtain ⟨e, -, reported⟩ := exists_of_forall₂ each f mem
  exact reported.stage

theorem repeated_stage :
    ∀ f ∈ (repeatedIds [] [] (nodes.map (·.id))).map Failure.duplicateNode, f.stage = 0 := by
  intro f mem
  obtain ⟨id, -, rfl⟩ := List.mem_map.mp mem
  rfl

/-- All failures of a compilation are found at the stage at which it ends. -/
theorem exists_stage {result : Except Refusal Compiled} (h : Outcome catalog nodes edges result) :
    ∃ stage, ∀ f ∈ failuresOf result, f.stage = stage := by
  cases h with
  | repeating repeating => exact ⟨0, repeated_stage⟩
  | unreadable => exact ⟨1, nofun⟩
  | faulty unique readable faulty each => exact ⟨1, reported_stage each⟩
  | cyclic => exact ⟨2, by simp [failuresOf, reportOf, Failure.stage]⟩
  | compiled => exact ⟨3, nofun⟩

theorem failuresAt_zero {result : Except Refusal Compiled}
    (h : Outcome catalog nodes edges result) :
    failuresAt 0 result = (repeatedIds [] [] (nodes.map (·.id))).map .duplicateNode := by
  cases h with
  | repeating repeating => exact failuresAt_same repeated_stage
  | unreadable unique =>
      rw [repeatedIds_nodes_eq_nil_iff.mpr unique]
      rfl
  | faulty unique readable faulty each =>
      rw [repeatedIds_nodes_eq_nil_iff.mpr unique]
      exact failuresAt_other (reported_stage each) (by simp)
  | cyclic unique =>
      rw [repeatedIds_nodes_eq_nil_iff.mpr unique]
      rfl
  | compiled unique =>
      rw [repeatedIds_nodes_eq_nil_iff.mpr unique]
      rfl

/-- One report for each edge that does not fit and none for the others, in their order. -/
theorem failuresAt_one {result : Except Refusal Compiled}
    (h : Outcome catalog nodes edges result) (unique : ¬ Repeating nodes)
    (readable : ∀ e ∈ edges, ¬ Unreadable catalog nodes e) :
    List.Forall₂ (Reported catalog nodes) (edges.filter (Faulty catalog nodes ·))
      (failuresAt 1 result) := by
  have nothing (fit : ∀ e ∈ edges, Fits catalog nodes e) :
      edges.filter (Faulty catalog nodes ·) = [] :=
    List.filter_eq_nil_iff.mpr fun e he => by simpa using (fit e he).not_faulty
  cases h with
  | repeating repeating => exact absurd repeating unique
  | unreadable _ unreadable =>
      obtain ⟨e, he, unreadable⟩ := unreadable
      exact absurd unreadable (readable e he)
  | faulty _ _ _ each =>
      rw [failuresAt_same (reported_stage each)]
      exact each
  | cyclic _ fit =>
      rw [nothing fit]
      exact .nil
  | compiled _ fit =>
      rw [nothing fit]
      exact .nil

/--
The ids reported are those used at least twice, each once, in the order of
their second occurrences.  If there are none, one failure is reported for each
edge that does not fit, in the order of the edges, unless some edge joins nodes
that do not declare their signals: then the compilation raises and reports
nothing.  All failures that are reported together belong to one stage.
-/
theorem compile_failures (catalog : Catalog) (nodes : List Node) (edges : List Edge) :
    let result := compile catalog nodes edges
    let Readable := ∀ e ∈ edges, ¬ Unreadable catalog nodes e
    (∃ repeated : List String, failuresAt 0 result = repeated.map .duplicateNode ∧
      repeated.Nodup ∧ (∀ id, id ∈ repeated ↔ 2 ≤ (nodes.map (·.id)).count id) ∧
      repeated.Pairwise (TwiceBefore (nodes.map (·.id)))) ∧
    ((nodes.map (·.id)).Nodup → Readable →
      List.Forall₂ (Reported catalog nodes) (edges.filter (Faulty catalog nodes ·))
        (failuresAt 1 result)) ∧
    (Raises result ↔ (nodes.map (·.id)).Nodup ∧ ¬ Readable) ∧
    ∀ f ∈ failuresOf result, ∀ g ∈ failuresOf result, f.stage = g.stage := by
  intro result Readable
  have went : Outcome catalog nodes edges result := outcome catalog nodes edges
  obtain ⟨mem, order⟩ := @repeatedIds_spec [] [] [] (nodes.map (·.id)) marked_nil
  refine ⟨⟨_, failuresAt_zero went, order.imp TwiceBefore.ne, ?_, order⟩, ?_, ?_, ?_⟩
  · simpa using mem
  · exact fun unique => failuresAt_one went (not_repeating_iff.mpr unique)
  · rw [← not_repeating_iff]
    exact went.raises_iff
  · obtain ⟨stage, all⟩ := exists_stage went
    exact fun f hf g hg => (all f hf).trans (all g hg).symm

/-- An edge to nowhere is not reported beside one between nodes that declare no signals. -/
theorem exists_compile_unreported :
    ∃ c d, Catalog.empty.register (.plain unsided) = .ok (c, d) ∧
      let nodes : List Node := [⟨"a", "MUTE", [], none⟩, ⟨"b", "MUTE", [], none⟩]
      let edges : List Edge := [⟨"e1", "a", "ghost", none, none⟩, ⟨"e2", "a", "b", none, none⟩]
      (nodes.map (·.id)).Nodup ∧ (∃ e ∈ edges, Faulty c nodes e) ∧
        failuresOf (compile c nodes edges) = [] := by
  refine ⟨_, _, rfl, by decide, ⟨_, List.mem_cons_self, .inr (.inl ?_)⟩, rfl⟩
  decide

/-- An edge to nowhere is reported beside one from a transform, which gives points, to a filter. -/
example :
    (failuresAt 1 (compile .builtin
      [⟨"osc", "SINE_GEN", [], none⟩, ⟨"fft", "FFT", [], none⟩, ⟨"low", "LOWPASS_FIR", [], none⟩]
      [⟨"e1", "osc", "ghost", none, none⟩, ⟨"e2", "osc", "low", none, none⟩,
        ⟨"e3", "fft", "low", none, none⟩])).map Failure.code =
      ["INVALID_CONNECTION", "TYPE_MISMATCH"] := by rfl

end Graph

end Flowgraph
