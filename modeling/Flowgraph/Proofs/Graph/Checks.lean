import Flowgraph.Graph.Failure
import Flowgraph.Proofs.Graph.Edges
import Mathlib.Data.List.Nodup

/-!
# What the checks before ordering look for

Ids used twice and edges that do not fit are described without reference to the
checks; each check reports something exactly when there is something to report.
-/

namespace Flowgraph

namespace Graph

def Repeating (nodes : List Node) : Prop :=
  ∃ id, 2 ≤ (nodes.map (·.id)).count id

/-- The signals that the type of a node declares; an unknown type takes and gives real samples. -/
inductive Declares (catalog : Catalog) (n : Node) : Block.Signature → Prop
  | known {d : Block.Descriptor} {s : Block.Signature}
      (resolved : catalog.resolve n.blockType = some d) (declared : d.signals = .declared s) :
      Declares catalog n s
  | unknown (missing : catalog.resolve n.blockType = none) :
      Declares catalog n ⟨some .real, some .real⟩

def Undeclared (catalog : Catalog) (n : Node) : Prop :=
  ∃ d v, catalog.resolve n.blockType = some d ∧ d.signals = .other v

def Differ (catalog : Catalog) (s t : Node) : Prop :=
  ∃ given taken, Declares catalog s given ∧ Declares catalog t taken ∧ given.output ≠ taken.input

/-- An end of an edge is missing, or the signals at its ends differ. -/
def Faulty (catalog : Catalog) (nodes : List Node) (edge : Edge) : Prop :=
  (∀ n ∈ nodes, n.id ≠ edge.source) ∨ (∀ n ∈ nodes, n.id ≠ edge.target) ∨
    ∃ s ∈ nodes, ∃ t ∈ nodes, s.id = edge.source ∧ t.id = edge.target ∧ Differ catalog s t

/-- An edge joins two nodes, at least one of which does not declare its signals. -/
def Unreadable (catalog : Catalog) (nodes : List Node) (edge : Edge) : Prop :=
  ∃ s ∈ nodes, ∃ t ∈ nodes, s.id = edge.source ∧ t.id = edge.target ∧
    (Undeclared catalog s ∨ Undeclared catalog t)

/-- Both ends of an edge are known, and the one gives what the other takes. -/
def Fits (catalog : Catalog) (nodes : List Node) (edge : Edge) : Prop :=
  edge.source ∈ nodes.map (·.id) ∧ edge.target ∈ nodes.map (·.id) ∧
    ∀ s ∈ nodes, ∀ t ∈ nodes, s.id = edge.source → t.id = edge.target →
      ∃ given taken, Declares catalog s given ∧ Declares catalog t taken ∧
        given.output = taken.input

variable {catalog : Catalog} {nodes : List Node}

/-! ## Ids -/

theorem not_repeating_iff : ¬ Repeating nodes ↔ (nodes.map (·.id)).Nodup := by
  unfold Repeating
  rw [List.nodup_iff_count_le_one, not_exists]
  refine forall_congr' fun id => ?_
  omega

/-- As long as nothing has been found, an id is found exactly if it occurred before. -/
theorem repeatedIds_eq_nil_iff (seen ids : List String) :
    repeatedIds seen [] ids = [] ↔ ids.Nodup ∧ ∀ id ∈ ids, id ∉ seen := by
  induction ids generalizing seen with
  | nil => simp [repeatedIds]
  | cons id rest ih =>
      by_cases h : id ∈ seen
      · simp [repeatedIds, h]
      · have hc : ¬ (id ∈ seen ∧ id ∉ ([] : List String)) := fun both => h both.1
        rw [repeatedIds, if_neg hc, ih, List.nodup_cons]
        constructor
        · rintro ⟨distinct, fresh⟩
          refine ⟨⟨fun mem => fresh id mem List.mem_cons_self, distinct⟩, ?_⟩
          intro other mem old
          rcases List.mem_cons.mp mem with rfl | mem
          · exact h old
          · exact fresh other mem (List.mem_cons_of_mem _ old)
        · rintro ⟨⟨absent, distinct⟩, fresh⟩
          refine ⟨distinct, fun other mem old => ?_⟩
          rcases List.mem_cons.mp old with rfl | old
          · exact absent mem
          · exact fresh other (List.mem_cons_of_mem _ mem) old

theorem repeatedIds_nodes_eq_nil_iff :
    repeatedIds [] [] (nodes.map (·.id)) = [] ↔ ¬ Repeating nodes := by
  rw [repeatedIds_eq_nil_iff, not_repeating_iff]
  simp

/-! ## Nodes by id -/

theorem find?_eq_none_iff {id : String} : find? nodes id = none ↔ ∀ n ∈ nodes, n.id ≠ id := by
  simp [find?]

theorem of_find?_eq_some {id : String} {n : Node} (h : find? nodes id = some n) :
    n ∈ nodes ∧ n.id = id :=
  ⟨List.mem_of_find?_eq_some h, by simpa using List.find?_some h⟩

theorem find?_of_mem (unique : (nodes.map (·.id)).Nodup) {n : Node} (mem : n ∈ nodes) :
    find? nodes n.id = some n := by
  cases h : find? nodes n.id with
  | none => exact absurd rfl (find?_eq_none_iff.mp h n mem)
  | some m =>
      obtain ⟨hm, hid⟩ := of_find?_eq_some h
      rw [List.inj_on_of_nodup_map unique hm mem hid]

theorem filterMap_find?_perm (unique : (nodes.map (·.id)).Nodup) {ids : List String}
    (perm : ids.Perm (nodes.map (·.id))) :
    (ids.filterMap (find? nodes)).Perm nodes ∧ (ids.filterMap (find? nodes)).map (·.id) = ids := by
  constructor
  · have all : (nodes.map (·.id)).filterMap (find? nodes) = nodes := by
      rw [List.filterMap_map]
      calc
        nodes.filterMap (find? nodes ∘ (·.id)) = nodes.filterMap some :=
          List.filterMap_congr fun n mem => find?_of_mem unique mem
        _ = nodes := List.filterMap_some
    simpa only [all] using perm.filterMap (find? nodes)
  · have known : ∀ id ∈ ids, ∃ n, find? nodes id = some n ∧ n.id = id := by
      intro id mem
      obtain ⟨n, hn, rfl⟩ := List.mem_map.mp (perm.mem_iff.mp mem)
      exact ⟨n, find?_of_mem unique hn, rfl⟩
    clear perm
    induction ids with
    | nil => rfl
    | cons id rest ih =>
        obtain ⟨n, found, same⟩ := known id List.mem_cons_self
        rw [List.filterMap_cons_some found, List.map_cons, same,
          ih fun other mem => known other (List.mem_cons_of_mem _ mem)]

/-! ## Declared signals -/

theorem declares_iff {n : Node} {s : Block.Signature} :
    Declares catalog n s ↔ catalog.signalsFor n.blockType = .declared s := by
  unfold Catalog.signalsFor
  constructor
  · rintro (⟨resolved, declared⟩ | missing)
    · simpa [resolved] using declared
    · simp [missing]
  · intro declared
    cases resolved : catalog.resolve n.blockType with
    | none =>
        rw [resolved] at declared
        cases declared
        exact .unknown resolved
    | some d =>
        rw [resolved] at declared
        exact .known resolved declared

theorem undeclared_iff {n : Node} :
    Undeclared catalog n ↔ ∃ v, catalog.signalsFor n.blockType = .other v := by
  unfold Undeclared Catalog.signalsFor
  cases resolved : catalog.resolve n.blockType with
  | none => simp
  | some d => simp

theorem Declares.unique {n : Node} {s t : Block.Signature} (h : Declares catalog n s)
    (h' : Declares catalog n t) : s = t :=
  Block.Signals.declared.inj ((declares_iff.mp h).symm.trans (declares_iff.mp h'))

theorem Declares.not_undeclared {n : Node} {s : Block.Signature} (h : Declares catalog n s) :
    ¬ Undeclared catalog n := by
  rw [undeclared_iff]
  rintro ⟨v, other⟩
  rw [declares_iff.mp h] at other
  cases other

theorem exists_declares {n : Node} (h : ¬ Undeclared catalog n) : ∃ s, Declares catalog n s := by
  rw [undeclared_iff] at h
  cases signals : catalog.signalsFor n.blockType with
  | declared s => exact ⟨s, declares_iff.mpr signals⟩
  | other v => exact absurd ⟨v, signals⟩ h

/-! ## Edges -/

/--
What there is to report of an edge: the end that is missing, the source first,
or else the nodes at its ends with the differing signals that they declare.
-/
inductive Reported (catalog : Catalog) (nodes : List Node) (edge : Edge) : Failure → Prop
  | source (missing : ∀ n ∈ nodes, n.id ≠ edge.source) :
      Reported catalog nodes edge (.unknownNode edge edge.source)
  | target (known : ∃ n ∈ nodes, n.id = edge.source) (missing : ∀ n ∈ nodes, n.id ≠ edge.target) :
      Reported catalog nodes edge (.unknownNode edge edge.target)
  | mismatch {s t : Node} {given taken : Block.Signature} (hs : s ∈ nodes) (ht : t ∈ nodes)
      (sid : s.id = edge.source) (tid : t.id = edge.target) (gives : Declares catalog s given)
      (takes : Declares catalog t taken) (differ : given.output ≠ taken.input) :
      Reported catalog nodes edge (.typeMismatch edge s t given.output taken.input)

inductive Verdict (catalog : Catalog) (nodes : List Node) (edge : Edge) :
    Except Fault (Option Failure) → Prop
  | fits (fits : Fits catalog nodes edge) : Verdict catalog nodes edge (.ok none)
  | reported {failure : Failure} (reported : Reported catalog nodes edge failure) :
      Verdict catalog nodes edge (.ok (some failure))
  | unreadable (unreadable : Unreadable catalog nodes edge) (kind side : String) :
      Verdict catalog nodes edge (.error (.noAttribute kind side))

variable {edge : Edge}

theorem Reported.faulty {failure : Failure} (h : Reported catalog nodes edge failure) :
    Faulty catalog nodes edge := by
  cases h with
  | source missing => exact .inl missing
  | target known missing => exact .inr (.inl missing)
  | mismatch hs ht sid tid gives takes differ =>
      exact .inr (.inr ⟨_, hs, _, ht, sid, tid, _, _, gives, takes, differ⟩)

theorem Reported.code {failure : Failure} (h : Reported catalog nodes edge failure) :
    failure.code = "INVALID_CONNECTION" ∨ failure.code = "TYPE_MISMATCH" := by
  cases h with
  | source => exact .inl rfl
  | target => exact .inl rfl
  | mismatch => exact .inr rfl

theorem Fits.not_faulty (h : Fits catalog nodes edge) : ¬ Faulty catalog nodes edge := by
  obtain ⟨source, target, agree⟩ := h
  obtain ⟨s, hs, sid⟩ := List.mem_map.mp source
  obtain ⟨t, ht, tid⟩ := List.mem_map.mp target
  rintro (missing | missing | ⟨s', hs', t', ht', sid', tid', given, taken, gives, takes, differ⟩)
  · exact missing s hs sid
  · exact missing t ht tid
  · obtain ⟨given', taken', gives', takes', same⟩ := agree s' hs' t' ht' sid' tid'
    rw [gives.unique gives', takes.unique takes'] at differ
    exact differ same

theorem Fits.not_unreadable (h : Fits catalog nodes edge) : ¬ Unreadable catalog nodes edge := by
  rintro ⟨s, hs, t, ht, sid, tid, undeclared⟩
  obtain ⟨given, taken, gives, takes, -⟩ := h.2.2 s hs t ht sid tid
  rcases undeclared with undeclared | undeclared
  · exact gives.not_undeclared undeclared
  · exact takes.not_undeclared undeclared

section

variable (unique : (nodes.map (·.id)).Nodup)
include unique

theorem eq_of_id {n m : Node} (hn : n ∈ nodes) (hm : m ∈ nodes) (same : n.id = m.id) : n = m :=
  List.inj_on_of_nodup_map unique hn hm same

theorem Faulty.not_unreadable (h : Faulty catalog nodes edge) :
    ¬ Unreadable catalog nodes edge := by
  rintro ⟨s, hs, t, ht, sid, tid, undeclared⟩
  rcases h with missing | missing | ⟨s', hs', t', ht', sid', tid', given, taken, gives, takes, -⟩
  · exact missing s hs sid
  · exact missing t ht tid
  · rw [eq_of_id unique hs' hs (sid'.trans sid.symm)] at gives
    rw [eq_of_id unique ht' ht (tid'.trans tid.symm)] at takes
    rcases undeclared with undeclared | undeclared
    · exact gives.not_undeclared undeclared
    · exact takes.not_undeclared undeclared

theorem Reported.eq_of_reported {failure failure' : Failure} (h : Reported catalog nodes edge failure)
    (h' : Reported catalog nodes edge failure') : failure = failure' := by
  cases h with
  | source missing =>
      cases h' with
      | source => rfl
      | target known => exact absurd known (by simpa using missing)
      | mismatch hs _ sid => exact absurd sid (missing _ hs)
  | target known missing =>
      cases h' with
      | source missing' => exact absurd known (by simpa using missing')
      | target => rfl
      | mismatch _ ht _ tid => exact absurd tid (missing _ ht)
  | mismatch hs ht sid tid gives takes =>
      cases h' with
      | source missing => exact absurd sid (missing _ hs)
      | target _ missing => exact absurd tid (missing _ ht)
      | mismatch hs' ht' sid' tid' gives' takes' =>
          cases eq_of_id unique hs hs' (sid.trans sid'.symm)
          cases eq_of_id unique ht ht' (tid.trans tid'.symm)
          rw [gives.unique gives', takes.unique takes']

/-- What the check of an edge between two known nodes comes to. -/
theorem edgeFailure?_of_mem {s t : Node} (hs : s ∈ nodes) (ht : t ∈ nodes)
    (sid : s.id = edge.source) (tid : t.id = edge.target) :
    edgeFailure? catalog nodes edge =
      (catalog.signalsFor s.blockType).output >>= fun given =>
      (catalog.signalsFor t.blockType).input >>= fun wanted =>
      if given = wanted then .ok none else .ok (some (.typeMismatch edge s t given wanted)) := by
  unfold edgeFailure?
  rw [← sid, ← tid, find?_of_mem unique hs, find?_of_mem unique ht]
  refine bind_congr fun given => bind_congr fun wanted => ?_
  split <;> rfl

theorem verdict_of_mem {s t : Node} (hs : s ∈ nodes) (ht : t ∈ nodes)
    (sid : s.id = edge.source) (tid : t.id = edge.target) :
    Verdict catalog nodes edge (edgeFailure? catalog nodes edge) := by
  rw [edgeFailure?_of_mem unique hs ht sid tid]
  cases gives : catalog.signalsFor s.blockType with
  | other v =>
      exact .unreadable ⟨s, hs, t, ht, sid, tid, .inl (undeclared_iff.mpr ⟨v, gives⟩)⟩ _ _
  | declared given =>
      cases takes : catalog.signalsFor t.blockType with
      | other v =>
          exact .unreadable ⟨s, hs, t, ht, sid, tid, .inr (undeclared_iff.mpr ⟨v, takes⟩)⟩ _ _
      | declared taken =>
          show Verdict catalog nodes edge (if given.output = taken.input then _ else _)
          by_cases same : given.output = taken.input
          · rw [if_pos same]
            refine .fits ⟨sid ▸ List.mem_map_of_mem hs, tid ▸ List.mem_map_of_mem ht, ?_⟩
            intro s' hs' t' ht' sid' tid'
            rw [eq_of_id unique hs' hs (sid'.trans sid.symm),
              eq_of_id unique ht' ht (tid'.trans tid.symm)]
            exact ⟨given, taken, declares_iff.mpr gives, declares_iff.mpr takes, same⟩
          · rw [if_neg same]
            exact .reported (.mismatch hs ht sid tid (declares_iff.mpr gives)
              (declares_iff.mpr takes) same)

theorem verdict (catalog : Catalog) (edge : Edge) :
    Verdict catalog nodes edge (edgeFailure? catalog nodes edge) := by
  cases hs : find? nodes edge.source with
  | none =>
      have missing := find?_eq_none_iff.mp hs
      simp only [edgeFailure?, hs]
      exact .reported (.source missing)
  | some s =>
      obtain ⟨smem, sid⟩ := of_find?_eq_some hs
      cases ht : find? nodes edge.target with
      | none =>
          have missing := find?_eq_none_iff.mp ht
          simp only [edgeFailure?, hs, ht]
          exact .reported (.target ⟨s, smem, sid⟩ missing)
      | some t =>
          obtain ⟨tmem, tid⟩ := of_find?_eq_some ht
          exact verdict_of_mem unique smem tmem sid tid

theorem fits_iff : Fits catalog nodes edge ↔
    ¬ Unreadable catalog nodes edge ∧ ¬ Faulty catalog nodes edge := by
  refine ⟨fun fits => ⟨fits.not_unreadable, fits.not_faulty⟩, fun ⟨readable, sound⟩ => ?_⟩
  have checked := verdict unique catalog edge
  generalize edgeFailure? catalog nodes edge = result at checked
  cases checked with
  | fits fits => exact fits
  | reported reported => exact absurd reported.faulty sound
  | unreadable unreadable => exact absurd unreadable readable

end

/-! ## All edges -/

instance (catalog : Catalog) (s t : Node) : Decidable (Differ catalog s t) :=
  match gives : catalog.signalsFor s.blockType, takes : catalog.signalsFor t.blockType with
  | .declared given, .declared taken =>
      decidable_of_iff (given.output ≠ taken.input)
        ⟨fun differ => ⟨given, taken, declares_iff.mpr gives, declares_iff.mpr takes, differ⟩,
          fun ⟨_, _, gives', takes', differ⟩ => by
            rwa [← gives'.unique (declares_iff.mpr gives),
              ← takes'.unique (declares_iff.mpr takes)]⟩
  | .other v, _ =>
      .isFalse fun ⟨_, _, gives', _, _⟩ => gives'.not_undeclared (undeclared_iff.mpr ⟨v, gives⟩)
  | _, .other v =>
      .isFalse fun ⟨_, _, _, takes', _⟩ => takes'.not_undeclared (undeclared_iff.mpr ⟨v, takes⟩)

instance (catalog : Catalog) (nodes : List Node) : DecidablePred (Faulty catalog nodes) :=
  fun edge => inferInstanceAs (Decidable
    ((∀ n ∈ nodes, n.id ≠ edge.source) ∨ (∀ n ∈ nodes, n.id ≠ edge.target) ∨
      ∃ s ∈ nodes, ∃ t ∈ nodes, s.id = edge.source ∧ t.id = edge.target ∧ Differ catalog s t))

/--
The ways in which the check of some edges can go: one report for each edge that
does not fit and none for the others, in their order, or a fault.
-/
inductive Findings (catalog : Catalog) (nodes : List Node) (edges : List Edge) :
    Except Fault (List Failure) → Prop
  | found {failures : List Failure} (readable : ∀ e ∈ edges, ¬ Unreadable catalog nodes e)
      (each : List.Forall₂ (Reported catalog nodes) (edges.filter (Faulty catalog nodes ·))
        failures) : Findings catalog nodes edges (.ok failures)
  | unreadable (unreadable : ∃ e ∈ edges, Unreadable catalog nodes e) (kind side : String) :
      Findings catalog nodes edges (.error (.noAttribute kind side))

theorem findings (catalog : Catalog) (unique : (nodes.map (·.id)).Nodup) (edges : List Edge) :
    Findings catalog nodes edges (edgeFailures catalog nodes edges) := by
  induction edges with
  | nil => exact .found (by simp) .nil
  | cons edge rest ih =>
      rw [edgeFailures]
      generalize edgeFailures catalog nodes rest = more at ih
      have checked := verdict unique catalog edge
      generalize edgeFailure? catalog nodes edge = first at checked
      cases checked with
      | unreadable unreadable kind side => exact .unreadable ⟨edge, by simp, unreadable⟩ kind side
      | fits fits =>
          cases ih with
          | unreadable unreadable kind side =>
              exact .unreadable (by simpa using .inr unreadable) kind side
          | found readable each =>
              refine .found (List.forall_mem_cons.mpr ⟨fits.not_unreadable, readable⟩) ?_
              rw [List.filter_cons_of_neg (by simpa using fits.not_faulty)]
              exact each
      | reported reported =>
          cases ih with
          | unreadable unreadable kind side =>
              exact .unreadable (by simpa using .inr unreadable) kind side
          | found readable each =>
              have readable' := reported.faulty.not_unreadable unique
              refine .found (List.forall_mem_cons.mpr ⟨readable', readable⟩) ?_
              rw [List.filter_cons_of_pos (by simpa using reported.faulty)]
              exact .cons reported each

theorem edgeFailures_eq_nil_iff (unique : (nodes.map (·.id)).Nodup) (edges : List Edge) :
    edgeFailures catalog nodes edges = .ok [] ↔ ∀ e ∈ edges, Fits catalog nodes e := by
  have checked := findings catalog unique edges
  generalize edgeFailures catalog nodes edges = result at checked
  cases checked with
  | unreadable unreadable kind side =>
      obtain ⟨e, he, unreadable⟩ := unreadable
      exact ⟨nofun, fun fit => absurd unreadable (fit e he).not_unreadable⟩
  | found readable each =>
      rename_i failures
      have empty : failures = [] ↔ ∀ e ∈ edges, ¬ Faulty catalog nodes e := by
        rw [← List.length_eq_zero_iff, ← each.length_eq, List.length_eq_zero_iff,
          List.filter_eq_nil_iff]
        simp
      rw [Except.ok.injEq, empty]
      exact forall₂_congr fun e he =>
        ⟨fun sound => (fits_iff unique).mpr ⟨readable e he, sound⟩, Fits.not_faulty⟩

end Graph

end Flowgraph
