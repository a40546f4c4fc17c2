import Flowgraph.Catalog.Registry
import Flowgraph.Fault.Kind
import Mathlib.Data.List.Induction
import Mathlib.Data.List.Nodup

/-!
# Registration

A catalog as it is changed: by one call after another, some of them refused.
The two indexes are written one after the other, so what keeps them in step is
that everything is checked before the first is written.
-/

namespace Flowgraph

namespace Catalog

open Block

/-! ## Calls -/

inductive Call where
  | register (offer : Offer)
  | defineGroup (id name : String) (order : Value)
  | freeze

def enter : List (String × Descriptor) → String → Descriptor → List (String × Descriptor)
  | [], key, d => [(key, d)]
  | (k, old) :: rest, key, d =>
    if k = key then (k, d) :: rest else (k, old) :: enter rest key d

/--
Ask for a change.  What is written before a fault stays written; a registration
gives back the block type.
-/
def edit : Call → EStateM Fault Catalog (Option Descriptor)
  | .register offer => do
    let d ← ofExcept ((← get).accept offer)
    modify fun c => { c with byId := enter c.byId d.id d }
    modify fun c => { c with byName := enter c.byName d.name d }
    return some d
  | .defineGroup id name order => do
    let c ← ofExcept ((← get).defineGroup id name order)
    set c
    return none
  | .freeze => do
    modify freeze
    return none

def after (c : Catalog) (call : Call) : Catalog :=
  match (edit call).run c with
  | .ok _ c' => c'
  | .error _ c' => c'

def afterAll (c : Catalog) (calls : List Call) : Catalog :=
  calls.foldl after c

@[simp]
theorem afterAll_concat (c : Catalog) (calls : List Call) (call : Call) :
    c.afterAll (calls ++ [call]) = (c.afterAll calls).after call := by
  simp [afterAll]

/-! ## Single calls -/

/-- The block type that an offer describes, once it is read and found complete. -/
def Offer.Describes (offer : Offer) (d : Descriptor) : Prop :=
  ∃ draft, offer.toDraft = .ok draft ∧ draft.complete = .ok (d.toProfile, .function d.process)

variable {c c' : Catalog} {offer : Offer} {d : Descriptor} {call : Call} {fault : Fault}

/-- Everything that is checked before the indexes are written. -/
theorem accept_eq_ok_iff :
    c.accept offer = .ok d ↔
      c.frozen = false ∧ offer.Describes d ∧
        c.byName.lookup d.name = none ∧ c.byId.lookup d.id = none := by
  constructor
  · intro accepted
    unfold accept at accepted
    cases frozen : c.frozen with
    | true =>
        rw [frozen] at accepted
        cases accepted
    | false =>
        rw [frozen] at accepted
        obtain ⟨draft, read, accepted⟩ := of_bind_eq_ok accepted
        obtain ⟨⟨profile, handler⟩, whole, accepted⟩ := of_bind_eq_ok accepted
        cases handler with
        | other v => cases accepted
        | function process =>
            cases name : c.byName.lookup profile.name with
            | some old =>
                simp only [name] at accepted
                cases accepted
            | none =>
                cases id : c.byId.lookup profile.id with
                | some old =>
                    simp only [name, id] at accepted
                    cases accepted
                | none =>
                    simp only [name, id] at accepted
                    cases accepted
                    exact ⟨rfl, ⟨draft, read, whole⟩, name, id⟩
  · rintro ⟨frozen, ⟨draft, read, whole⟩, name, id⟩
    simp [accept, frozen, read, whole, name, id, bind, Except.bind, pure, Except.pure]

theorem enter_of_fresh {index : List (String × Descriptor)} {key : String}
    (fresh : index.lookup key = none) (d : Descriptor) : enter index key d = index ++ [(key, d)] := by
  induction index with
  | nil => rfl
  | cons entry rest ih =>
      obtain ⟨k, old⟩ := entry
      rw [List.lookup_cons] at fresh
      split at fresh
      · cases fresh
      · rename_i other
        have apart : k ≠ key := fun same => by simp [same] at other
        rw [enter, if_neg apart, ih fresh, List.cons_append]

/-- Both indexes are written at their ends: the checks leave no key to write over. -/
theorem run_register (c : Catalog) (offer : Offer) :
    (edit (.register offer)).run c =
      match c.register offer with
      | .ok (c', d) => .ok (some d) c'
      | .error fault => .error fault c := by
  have spec : (edit (.register offer)).run c =
      match c.accept offer with
      | .ok d =>
        .ok (some d) { c with byId := enter c.byId d.id d, byName := enter c.byName d.name d }
      | .error fault => .error fault c := by
    show (ofExcept (c.accept offer) >>= _ : EStateM Fault Catalog (Option Descriptor)) c = _
    cases c.accept offer <;> rfl
  rw [spec, register]
  cases accepted : c.accept offer with
  | error fault => rfl
  | ok d =>
      obtain ⟨-, -, name, id⟩ := accept_eq_ok_iff.mp accepted
      simp only [enter_of_fresh name, enter_of_fresh id, add]

theorem run_defineGroup (c : Catalog) (id name : String) (order : Value) :
    (edit (.defineGroup id name order)).run c =
      match c.defineGroup id name order with
      | .ok c' => .ok none c'
      | .error fault => .error fault c := by
  show (ofExcept (c.defineGroup id name order) >>= _ :
    EStateM Fault Catalog (Option Descriptor)) c = _
  cases c.defineGroup id name order <;> rfl

theorem of_defineGroup {id name : String} {order : Value}
    (defined : c.defineGroup id name order = .ok c') :
    ∃ n, order.toInt = .ok n ∧ c.frozen = false ∧
      c' = { c with groups := writeGroup c.groups ⟨id, name, n⟩ } := by
  unfold defineGroup at defined
  split at defined
  · cases defined
  · rename_i thawed
    cases read : order.toInt with
    | error fault =>
        rw [read] at defined
        cases defined
    | ok n =>
        rw [read] at defined
        cases defined
        exact ⟨n, rfl, by simpa using thawed, rfl⟩

theorem run_freeze (c : Catalog) : (edit .freeze).run c = .ok none c.freeze := rfl

/--
Both indexes hold the same block types in the same order, each under its own id
and its own name, and no two share one.
-/
structure Indexed (c : Catalog) : Prop where
  byId : c.byId = c.descriptors.map fun d => (d.id, d)
  byName : c.byName = c.descriptors.map fun d => (d.name, d)
  ids : (c.descriptors.map (·.id)).Nodup
  names : (c.descriptors.map (·.name)).Nodup

theorem lookup_keyed_eq_none_iff {ds : List Descriptor} {key : Descriptor → String} {k : String} :
    (ds.map fun d => (key d, d)).lookup k = none ↔ ∀ d ∈ ds, key d ≠ k := by
  rw [List.lookup_eq_none_iff, List.forall_mem_map]
  simp only [bne_iff_ne, ne_comm]

theorem lookup_keyed_eq_some_iff {ds : List Descriptor} {key : Descriptor → String}
    (distinct : (ds.map key).Nodup) {k : String} :
    (ds.map fun d => (key d, d)).lookup k = some d ↔ d ∈ ds ∧ key d = k := by
  induction ds with
  | nil => simp
  | cons first rest ih =>
      rw [List.map_cons, List.nodup_cons, List.mem_map] at distinct
      rw [List.map_cons, List.lookup_cons, List.mem_cons]
      by_cases here : k = key first
      · subst here
        simp only [beq_self_eq_true, Option.some.injEq]
        constructor
        · rintro rfl
          exact ⟨.inl rfl, rfl⟩
        · rintro ⟨rfl | later, same⟩
          · rfl
          · exact absurd ⟨d, later, same⟩ distinct.1
      · rw [beq_false_of_ne here, ih distinct.2]
        constructor
        · rintro ⟨later, same⟩
          exact ⟨.inr later, same⟩
        · rintro ⟨rfl | later, same⟩
          · exact absurd same.symm here
          · exact ⟨later, same⟩

theorem indexed_empty : Indexed empty :=
  ⟨rfl, rfl, List.nodup_nil, List.nodup_nil⟩

namespace Indexed

theorem getByName?_eq_some_iff (h : Indexed c) {name : String} :
    c.getByName? name = some d ↔ d ∈ c.descriptors ∧ d.name = name := by
  rw [getByName?, h.byName]
  exact lookup_keyed_eq_some_iff h.names

/-- In terms of what is registered, a new block type needs a new id and a new name. -/
theorem accept_eq_ok_iff (h : Indexed c) :
    c.accept offer = .ok d ↔
      c.frozen = false ∧ offer.Describes d ∧ ∀ e ∈ c.descriptors, e.id ≠ d.id ∧ e.name ≠ d.name := by
  rw [Catalog.accept_eq_ok_iff, h.byId, h.byName, lookup_keyed_eq_none_iff,
    lookup_keyed_eq_none_iff, forall₂_and, and_comm (a := ∀ e ∈ c.descriptors, e.name ≠ d.name)]

theorem add (h : Indexed c) (fresh : ∀ e ∈ c.descriptors, e.id ≠ d.id ∧ e.name ≠ d.name) :
    Indexed (c.add d) := by
  have members : (c.add d).descriptors = c.descriptors ++ [d] := by
    simp [descriptors, Catalog.add]
  have distinct {key : Descriptor → String} (old : (c.descriptors.map key).Nodup)
      (new : ∀ e ∈ c.descriptors, key e ≠ key d) :
      ((c.descriptors ++ [d]).map key).Nodup := by
    rw [List.map_append, List.nodup_append]
    refine ⟨old, List.nodup_singleton _, ?_⟩
    simpa using new
  refine ⟨?_, ?_, ?_, ?_⟩
  · rw [members, List.map_append, ← h.byId]
    rfl
  · rw [members, List.map_append, ← h.byName]
    rfl
  · rw [members]
    exact distinct h.ids fun e mem => (fresh e mem).1
  · rw [members]
    exact distinct h.names fun e mem => (fresh e mem).2

theorem after (h : Indexed c) (call : Call) : Indexed (c.after call) := by
  unfold Catalog.after
  cases call with
  | register offer =>
      rw [run_register, register]
      cases accepted : c.accept offer with
      | error fault => exact h
      | ok d => exact h.add (h.accept_eq_ok_iff.mp accepted).2.2
  | defineGroup id name order =>
      rw [run_defineGroup]
      cases defined : c.defineGroup id name order with
      | error fault => exact h
      | ok c' =>
          obtain ⟨n, -, -, rfl⟩ := of_defineGroup defined
          exact ⟨h.byId, h.byName, h.ids, h.names⟩
  | freeze => exact ⟨h.byId, h.byName, h.ids, h.names⟩

end Indexed

theorem indexed_afterAll (calls : List Call) : Indexed (empty.afterAll calls) := by
  induction calls using List.reverseRecOn with
  | nil => exact indexed_empty
  | append_singleton calls call ih =>
      rw [afterAll_concat]
      exact ih.after call

/-! ## Freezing -/

end Catalog

end Flowgraph
