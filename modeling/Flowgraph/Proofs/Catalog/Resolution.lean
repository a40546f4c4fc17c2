import Flowgraph.Proofs.Catalog.Registration

/-!
# What block types mean after a registration

A block type is named by its id or else by its display name.  Ids are unique
among ids and names among names, but a new id may be an old name, and then it is
the new block type that the name stands for.  Everything else that was known
stands for what it stood for.
-/

namespace Flowgraph

namespace Catalog

open Block

variable {c c' : Catalog} {d old : Descriptor} {offer : Offer}

theorem get?_add (c : Catalog) (d : Descriptor) (id : String) :
    (c.add d).get? id = (c.get? id).or (if id = d.id then some d else none) := by
  simp only [get?, add, List.lookup_append, List.lookup_cons, List.lookup_nil]
  split <;> simp_all

theorem getByName?_add (c : Catalog) (d : Descriptor) (name : String) :
    (c.add d).getByName? name =
      (c.getByName? name).or (if name = d.name then some d else none) := by
  simp only [getByName?, add, List.lookup_append, List.lookup_cons, List.lookup_nil]
  split <;> simp_all

theorem of_register (made : (edit (.register offer)).run c = .ok (some d) c') :
    c' = c.add d ∧ c.get? d.id = none := by
  rw [run_register, register] at made
  cases accepted : c.accept offer with
  | error fault =>
      rw [accepted] at made
      cases made
  | ok d' =>
      rw [accepted] at made
      cases made
      exact ⟨rfl, (accept_eq_ok_iff.mp accepted).2.2.2⟩

/-- The new id goes before all names, the new name behind everything. -/
theorem resolve_add (fresh : c.get? d.id = none) (blockType : String) :
    (c.add d).resolve blockType =
      if blockType = d.id then some d
      else (c.resolve blockType).or (if blockType = d.name then some d else none) := by
  rw [resolve, get?_add, getByName?_add]
  split
  · next same => rw [same, fresh, Option.none_or, Option.some_or]
  · rw [Option.or_none, resolve, Option.or_assoc]

theorem views_of_resolve {blockType : String}
    (same : c'.resolve blockType = c.resolve blockType) :
    c'.signalsFor blockType = c.signalsFor blockType ∧
      ∀ v, c'.checkValue blockType v = c.checkValue blockType v := by
  simp only [signalsFor, checkValue, checkParams, validator?, same, implies_true, and_self]

/--
A registration that succeeds leaves every block type that was known, but its own
id, with the same declaration, and so with the same signals, process and check.
If its id was known before, it was as a name alone, and now it is the id that
counts.
-/
theorem resolve_after_register (calls : List Call) {blockType : String}
    (made : (edit (.register offer)).run (empty.afterAll calls) = .ok (some d) c')
    (known : (empty.afterAll calls).resolve blockType = some old) :
    let c := empty.afterAll calls
    (blockType ≠ d.id →
      c'.resolve blockType = some old ∧
      c'.signalsFor blockType = c.signalsFor blockType ∧
      (c'.resolve blockType).map (·.process) = (c.resolve blockType).map (·.process) ∧
      ∀ v, c'.checkValue blockType v = c.checkValue blockType v) ∧
    (blockType = d.id →
      c.get? blockType = none ∧ old.name = blockType ∧ c'.resolve blockType = some d) := by
  intro c
  have indexed : Indexed c := indexed_afterAll calls
  obtain ⟨rfl, fresh⟩ := of_register made
  have resolved := resolve_add fresh blockType
  constructor
  · intro other
    rw [if_neg other, known, Option.some_or] at resolved
    have same : (c.add d).resolve blockType = c.resolve blockType := resolved.trans known.symm
    obtain ⟨signals, checks⟩ := views_of_resolve same
    exact ⟨resolved, signals, congrArg _ same, checks⟩
  · rintro rfl
    rw [if_pos rfl] at resolved
    have named : c.getByName? d.id = some old := by
      rwa [resolve, fresh, Option.none_or] at known
    exact ⟨fresh, (indexed.getByName?_eq_some_iff.mp named).2, resolved⟩

def passing (id name : String) (type : SignalType) : Offer :=
  .draft {
    id := some id
    name := some name
    icon := some "volume_up"
    group := some "math-blocks"
    signals := some (.declared ⟨some type, some type⟩)
    process := some (.function passFirst) }

/-- A new id takes over the name of an older block, which keeps its own id. -/
theorem resolve_after_register_renamed :
    let c := empty.afterAll [.register (passing "GAIN" "Gain" .real)]
    ∃ d c' old, (edit (.register (passing "Gain" "Loudness" .complex))).run c = .ok (some d) c' ∧
      c.resolve "GAIN" = some old ∧ c'.resolve "GAIN" = some old ∧
      c.resolve "Gain" = some old ∧ c'.resolve "Gain" = some d := by
  intro c
  obtain ⟨d, c', made⟩ : ∃ d c', (edit (.register (passing "Gain" "Loudness" .complex))).run c =
    .ok (some d) c' := ⟨_, _, rfl⟩
  obtain ⟨old, byId, byName⟩ : ∃ old, c.resolve "GAIN" = some old ∧ c.resolve "Gain" = some old :=
    ⟨_, rfl, rfl⟩
  have id : d.id = "Gain" := by
    cases made
    rfl
  refine ⟨d, c', old, made, byId, ?_, byName, ?_⟩
  · exact ((resolve_after_register _ made byId).1 (by rw [id]; decide)).1
  · exact ((resolve_after_register _ made byName).2 id.symm).2.2

/-- What a graph asks for by a name is not what it was, once a block has this name for its id. -/
theorem exists_resolve_changed :
    let c := empty.afterAll [.register (passing "GAIN" "Gain" .real)]
    ∃ d c' old, (edit (.register (passing "Gain" "Loudness" .complex))).run c = .ok (some d) c' ∧
      c.resolve "Gain" = some old ∧ c'.resolve "Gain" ≠ some old ∧
      c'.signalsFor "Gain" ≠ c.signalsFor "Gain" := by
  refine ⟨_, _, _, rfl, rfl, fun same => ?_, fun same => ?_⟩
  · have ids := congrArg (Option.map fun d : Descriptor => d.id) same
    exact absurd ids (by decide)
  · have inputs := congrArg (fun s : Signals => s.input.toOption) same
    exact absurd inputs (by decide)

end Catalog

end Flowgraph
