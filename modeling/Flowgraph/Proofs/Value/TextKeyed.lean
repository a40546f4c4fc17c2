import Flowgraph.Value

/-!
# Values with texts for keys

Documents name the entries of their objects by texts, at every depth.
-/

namespace Flowgraph

namespace Value

/-- All keys of objects are texts, at every depth. -/
inductive TextKeyed : Value → Prop where
  | null : TextKeyed .null
  | bool (b : Bool) : TextKeyed (.bool b)
  | int (n : Int) : TextKeyed (.int n)
  | float (x : Float) : TextKeyed (.float x)
  | text (s : String) : TextKeyed (.text s)
  | list {items : List Value} : (∀ v ∈ items, TextKeyed v) → TextKeyed (.list items)
  | object {entries : Params} : (∀ entry ∈ entries, ∃ name, entry.1 = .text name) →
      (∀ entry ∈ entries, TextKeyed entry.2) → TextKeyed (.object entries)

end Value

namespace Params

/-- An entry that is named by a text and whose value is text-keyed. -/
def Named (entry : Key × Value) : Prop :=
  (∃ name, entry.1 = .text name) ∧ entry.2.TextKeyed

variable {params more : Params} {key : Key} {value : Value}

section

variable {K : Key → Prop} {V : Value → Prop}

/-- A known key stays as it is, so what holds of keys and of values is kept by each on its own. -/
theorem forall_insert (each : ∀ entry ∈ params, K entry.1 ∧ V entry.2) (new : K key ∧ V value) :
    ∀ entry ∈ params.insert key value, K entry.1 ∧ V entry.2 := by
  induction params with
  | nil => simpa [insert] using new
  | cons first rest ih =>
      obtain ⟨now, later⟩ := List.forall_mem_cons.mp each
      unfold insert
      split
      · exact List.forall_mem_cons.mpr ⟨⟨now.1, new.2⟩, later⟩
      · exact List.forall_mem_cons.mpr ⟨now, ih later⟩

theorem forall_update (each : ∀ entry ∈ params, K entry.1 ∧ V entry.2)
    (new : ∀ entry ∈ more, K entry.1 ∧ V entry.2) :
    ∀ entry ∈ params.update more, K entry.1 ∧ V entry.2 := by
  induction more generalizing params with
  | nil => exact each
  | cons first rest ih =>
      obtain ⟨now, later⟩ := List.forall_mem_cons.mp new
      exact ih (forall_insert each now) later

end

theorem textKeyed_object_iff :
    (Value.object params).TextKeyed ↔ ∀ entry ∈ params, Named entry := by
  constructor
  · rintro (_ | _ | _ | _ | _ | _ | ⟨named, keyed⟩) entry mem
    exact ⟨named entry mem, keyed entry mem⟩
  · intro named
    exact .object (fun entry mem => (named entry mem).1) fun entry mem => (named entry mem).2

theorem mem_of_get? {name : String} {v : Value} (found : params.get? name = some v) :
    (Key.text name, v) ∈ params := by
  induction params with
  | nil => cases found
  | cons first rest ih =>
      obtain ⟨k, other⟩ := first
      cases k with
      | text k =>
          rw [get?] at found
          split at found
          · rename_i same
            cases found
            rw [same]
            exact List.mem_cons_self
          · exact List.mem_cons_of_mem _ (ih found)
      | _ => exact List.mem_cons_of_mem _ (ih found)

theorem textKeyed_get (keyed : (Value.object params).TextKeyed) (name : String) :
    (params.get name).TextKeyed := by
  unfold get
  cases found : params.get? name with
  | none => exact .null
  | some v => exact (textKeyed_object_iff.mp keyed _ (mem_of_get? found)).2

end Params

end Flowgraph
