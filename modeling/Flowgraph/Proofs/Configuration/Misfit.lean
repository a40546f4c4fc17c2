import Flowgraph.Proofs.Configuration.Records
import Flowgraph.Proofs.Engine.Settings

/-!
# Documents of the wrong form

A document is read field by field.  A field that is missing, empty or out of
range is refused; a field whose value is not of the form that is asked for is
not.  The latter is described here for records, graphs and whole documents:
where such a value stands, and that everything in front of it has been read.
-/

namespace Flowgraph

namespace Layout

/-! ## Lists of records -/

variable {β : Type} {read : Nat → Value → Except Fault β} {P : Value → Prop}

/-- A list has an item of a kind, and all items in front of it can be read. -/
def Reaches (read : Nat → Value → Except Fault β) (P : Value → Prop) (index : Nat)
    (items : List Value) : Prop :=
  ∃ before item after, items = before ++ item :: after ∧
    (∃ done, readAll read index before = .ok done) ∧ P item

theorem not_reaches_nil (index : Nat) : ¬ Reaches read P index [] := by
  rintro ⟨before, item, after, split, -⟩
  cases before <;> cases split

theorem reaches_cons_iff {index : Nat} {v : Value} {rest : List Value} :
    Reaches read P index (v :: rest) ↔
      P v ∨ ∃ b, read index v = .ok b ∧ Reaches read P (index + 1) rest := by
  constructor
  · rintro ⟨before, item, after, split, ⟨done, all⟩, p⟩
    cases before with
    | nil =>
        cases split
        exact .inl p
    | cons first before =>
        cases split
        obtain ⟨b, now, all⟩ := of_bind_eq_ok all
        obtain ⟨more, later, -⟩ := of_bind_eq_ok all
        exact .inr ⟨b, now, before, item, after, rfl, ⟨more, later⟩, p⟩
  · rintro (p | ⟨b, now, before, item, after, rfl, ⟨done, all⟩, p⟩)
    · exact ⟨[], v, rest, rfl, ⟨[], rfl⟩, p⟩
    · exact ⟨v :: before, item, after, rfl, ⟨b :: done, by rw [readAll, now, all]; rfl⟩, p⟩

theorem Reaches.exists_mem {index : Nat} {items : List Value} (h : Reaches read P index items) :
    ∃ item ∈ items, P item := by
  obtain ⟨before, item, after, rfl, -, p⟩ := h
  exact ⟨item, by simp, p⟩

theorem misfitIff_readAll (each : ∀ index v, MisfitIff (read index v) (P v)) (index : Nat)
    (items : List Value) : MisfitIff (readAll read index items) (Reaches read P index items) := by
  induction items generalizing index with
  | nil => exact (FailsIff.ok _).congr (iff_of_false id (not_reaches_nil index))
  | cons v rest ih =>
      refine ((each index v).bind fun b _ => (ih (index + 1)).bind fun more _ =>
        FailsIff.ok (b :: more)).congr ?_
      simp [reaches_cons_iff]

end Layout

namespace Value

/-! ## Mappings given as lists of pairs -/

theorem pairs_eq_readAll (index : Nat) (items : List Value) :
    pairs index items = Layout.readAll pair? index items := by
  induction items generalizing index with
  | nil => rfl
  | cons v rest ih => rw [pairs, Layout.readAll, ih]

/-- A value that lists no entries, or an element that is none behind entries that are read. -/
def Unlisted (v : Value) : Prop :=
  v.Single ∨ ∃ items, v = .list items ∧ Layout.Reaches pair? NoEntry 0 items

theorem misfitIff_toParams (v : Value) : MisfitIff v.toParams v.Unlisted := by
  have single : v.Single → v.Unlisted := .inl
  have read (items : List Value) : MisfitIff (pairs 0 items >>= fun entries =>
      .ok (Params.ofEntries entries)) (Layout.Reaches pair? NoEntry 0 items) := by
    rw [pairs_eq_readAll]
    exact ((Layout.misfitIff_readAll misfitIff_pair? 0 items).bind fun _ _ => FailsIff.ok _).congr
      (by simp)
  cases v with
  | null => exact (FailsIff.misfit rfl).congr (iff_of_true trivial (single .null))
  | bool b => exact (FailsIff.misfit rfl).congr (iff_of_true trivial (single (.bool b)))
  | int n => exact (FailsIff.misfit rfl).congr (iff_of_true trivial (single (.int n)))
  | float x => exact (FailsIff.misfit rfl).congr (iff_of_true trivial (single (.float x)))
  | object entries =>
      exact (FailsIff.ok _).congr (iff_of_false id (by rintro (⟨⟨⟩⟩ | ⟨items, ⟨⟩, -⟩)))
  | list items =>
      refine (read items).congr ⟨fun reaches => .inr ⟨items, rfl, reaches⟩, ?_⟩
      rintro (⟨⟨⟩⟩ | ⟨_, ⟨⟩, reaches⟩)
      exact reaches
  | text s =>
      refine (read ((Text.characters s).map text)).congr (iff_of_false ?_ ?_)
      · intro reaches
        obtain ⟨item, mem, none⟩ := reaches.exists_mem
        obtain ⟨c, -, rfl⟩ := List.mem_map.mp mem
        obtain ⟨⟨⟩⟩ := none
      · rintro (⟨⟨⟩⟩ | ⟨items, ⟨⟩, -⟩)

end Value

namespace Layout

/-! ## Graph records -/

theorem misfitIff_optionalText (v : Value) : MisfitIff (optionalText v) False := by
  by_cases null : v = .null
  · rw [null]
    exact FailsIff.ok none
  · rw [optionalText_of_ne_null null]
    exact (Value.misfitIff_toText v).map some

/-- A node record that is no object, or one with an id and a type whose parameters are none. -/
inductive MisfitNode : Value → Prop where
  | whole {v : Value} : v.entries? = none → MisfitNode v
  | params {item : Params} {id blockType : String} : (item.get "id").isGiven = true →
      (typeField item).isGiven = true → (item.get "id").toText = .ok id →
      (typeField item).toText = .ok blockType → (paramsField item).Unlisted →
      MisfitNode (.object item)

theorem misfitNode_object_iff {item : Params} :
    MisfitNode (.object item) ↔ (item.get "id").isGiven = true ∧
      (typeField item).isGiven = true ∧ (∃ id, (item.get "id").toText = .ok id) ∧
      (∃ blockType, (typeField item).toText = .ok blockType) ∧ (paramsField item).Unlisted := by
  constructor
  · rintro (⟨⟨⟩⟩ | ⟨named, typed, id, blockType, unlisted⟩)
    exact ⟨named, typed, ⟨_, id⟩, ⟨_, blockType⟩, unlisted⟩
  · rintro ⟨named, typed, ⟨_, id⟩, ⟨_, blockType⟩, unlisted⟩
    exact .params named typed id blockType unlisted

theorem misfitIff_readNode (index : Nat) (v : Value) :
    MisfitIff (readNode index v) (MisfitNode v) := by
  cases v with
  | object item =>
      rw [readNode_object, misfitNode_object_iff]
      split
      · rename_i unnamed
        exact (FailsIff.refused rfl).congr (by simp_all)
      · split
        · rename_i untyped
          exact (FailsIff.refused (Value.isRefusal_named fun _ => rfl)).congr (by simp_all)
        · refine ((Value.misfitIff_toText _).bind fun id _ =>
            (Value.misfitIff_toText _).bind fun blockType _ =>
            (Value.misfitIff_toParams _).bind fun params _ =>
            (misfitIff_optionalText _).map fun label =>
              (⟨id, blockType, params, label⟩ : Graph.Node)).congr ?_
          simp_all
  | _ => exact (FailsIff.misfit rfl).congr (iff_of_true trivial (.whole rfl))

theorem misfitIff_readFields (index : Nat) (item : Params) :
    MisfitIff (readFields index item) False :=
  ((Value.misfitIff_toText _).bind fun _ _ => (Value.misfitIff_toText _).bind fun _ _ =>
    (Value.misfitIff_toText _).bind fun _ _ => (misfitIff_optionalText _).bind fun _ _ =>
    (misfitIff_optionalText _).bind fun _ _ => FailsIff.ok _).congr (by simp)

theorem misfitIff_readEdge (index : Nat) (v : Value) :
    MisfitIff (readEdge index v) (v.entries? = none) := by
  cases v with
  | object item =>
      rw [readEdge_object]
      split
      · exact (FailsIff.refused rfl).congr (iff_of_false id nofun)
      · split
        · exact (FailsIff.refused rfl).congr (iff_of_false id nofun)
        · exact (misfitIff_readFields index item).congr (iff_of_false id nofun)
  | _ => exact (FailsIff.misfit rfl).congr (iff_of_true trivial rfl)

theorem misfitIff_readViewport (v : Value) :
    MisfitIff (readViewport v) (v ≠ .null ∧ v.Unlisted) := by
  by_cases null : v = .null
  · rw [null]
    exact (FailsIff.ok none).congr (by simp)
  · rw [readViewport_of_ne_null null]
    exact ((Value.misfitIff_toParams v).map some).congr (by simp [null])

theorem misfitIff_itemsUnder (data : Params) (key : String) :
    MisfitIff (itemsUnder data key) ((data.get key).orElse (.list [])).Single :=
  Value.misfitIff_elements _

def NodesRead (data : Params) : Prop :=
  ∃ items nodes, itemsUnder data "nodes" = .ok items ∧ readAll readNode 0 items = .ok nodes

def EdgesRead (data : Params) : Prop :=
  ∃ items edges, itemsUnder data "edges" = .ok items ∧ readAll readEdge 0 items = .ok edges

/-- A graph of the wrong form: where its first such value stands. -/
inductive Misfit : Value → Prop where
  | whole {v : Value} : v.entries? = none → Misfit v
  | nodes {data : Params} : ((data.get "nodes").orElse (.list [])).Single → Misfit (.object data)
  | node {data : Params} {items : List Value} : itemsUnder data "nodes" = .ok items →
      Reaches readNode MisfitNode 0 items → Misfit (.object data)
  | edges {data : Params} : NodesRead data → ((data.get "edges").orElse (.list [])).Single →
      Misfit (.object data)
  | edge {data : Params} {items : List Value} : NodesRead data →
      itemsUnder data "edges" = .ok items → Reaches readEdge (·.entries? = none) 0 items →
      Misfit (.object data)
  | viewport {data : Params} : NodesRead data → EdgesRead data → data.get "viewport" ≠ .null →
      (data.get "viewport").Unlisted → Misfit (.object data)

theorem misfitIff_ofRecords_object (data : Params) :
    MisfitIff (ofRecords (.object data)) (Misfit (.object data)) := by
  rw [ofRecords_object]
  refine ((misfitIff_itemsUnder data "nodes").bind fun items _ =>
    (misfitIff_readAll misfitIff_readNode 0 items).bind fun _ _ =>
    (misfitIff_itemsUnder data "edges").bind fun items _ =>
    (misfitIff_readAll misfitIff_readEdge 0 items).bind fun _ _ =>
    (misfitIff_readViewport (data.get "viewport")).bind fun _ _ => FailsIff.ok _).congr ⟨?_, ?_⟩
  · rintro (single | ⟨items, listed, reaches | ⟨nodes, read, single | ⟨items', listed', reaches |
      ⟨edges, read', ⟨given, unlisted⟩ | ⟨-, -, impossible⟩⟩⟩⟩⟩)
    · exact .nodes single
    · exact .node listed reaches
    · exact .edges ⟨items, nodes, listed, read⟩ single
    · exact .edge ⟨items, nodes, listed, read⟩ listed' reaches
    · exact .viewport ⟨items, nodes, listed, read⟩ ⟨items', edges, listed', read'⟩ given unlisted
    · exact impossible.elim
  · rintro (⟨⟨⟩⟩ | single | ⟨listed, reaches⟩ | ⟨⟨items, nodes, listed, read⟩, single⟩ |
      ⟨⟨items, nodes, listed, read⟩, listed', reaches⟩ |
      ⟨⟨items, nodes, listed, read⟩, ⟨items', edges, listed', read'⟩, given, unlisted⟩)
    · exact .inl single
    · exact .inr ⟨_, listed, .inl reaches⟩
    · exact .inr ⟨items, listed, .inr ⟨nodes, read, .inl single⟩⟩
    · exact .inr ⟨items, listed, .inr ⟨nodes, read, .inr ⟨_, listed', .inl reaches⟩⟩⟩
    · exact .inr ⟨items, listed, .inr ⟨nodes, read, .inr ⟨items', listed', .inr ⟨edges, read',
        .inl ⟨given, unlisted⟩⟩⟩⟩⟩

theorem misfitIff_ofRecords (v : Value) : MisfitIff (ofRecords v) (Misfit v) := by
  cases v with
  | object data => exact misfitIff_ofRecords_object data
  | _ => exact (FailsIff.misfit rfl).congr (iff_of_true trivial (.whole rfl))

end Layout

namespace Configuration

/-! ## Documents -/

def settingsEntries (raw : Params) : Params :=
  match raw.get "engine" with
  | .object engine => engine
  | _ => raw

theorem readSettings_eq (raw : Params) :
    readSettings raw = Settings.ofValues (Settings.standard.rateEntry (settingsEntries raw))
      (Settings.standard.sizeEntry (settingsEntries raw)) := by
  unfold readSettings settingsEntries
  cases raw.get "engine" <;> rfl

def graphField (raw : Params) : Value :=
  (raw.get "graph").orElse (.object [])

/--
A document of the wrong form: where its first such value stands.  Its entries
are listed before it is asked whether it is an object.
-/
inductive Misfit : Value → Prop where
  | entries {raw : Value} : raw.Unlisted → Misfit raw
  | settings {raw : Value} {entries : Params} : raw.toParams = .ok entries →
      Settings.Misfit (Settings.standard.rateEntry (settingsEntries entries))
        (Settings.standard.sizeEntry (settingsEntries entries)) → Misfit raw
  | whole {raw : Value} {entries : Params} {settings : Settings} : raw.toParams = .ok entries →
      readSettings entries = .ok settings → raw.entries? = none → Misfit raw
  | graph {entries : Params} {settings : Settings} : readSettings entries = .ok settings →
      Layout.Misfit (graphField entries) → Misfit (.object entries)
  | cycles {entries : Params} {settings : Settings} {graph : Layout} :
      readSettings entries = .ok settings → Layout.ofRecords (graphField entries) = .ok graph →
      graph.nodes ≠ [] → (entries.getD "cycles" (.int defaultCycles)).Uncountable →
      Misfit (.object entries)

theorem misfitIff_readSettings (raw : Params) :
    MisfitIff (readSettings raw)
      (Settings.Misfit (Settings.standard.rateEntry (settingsEntries raw))
        (Settings.standard.sizeEntry (settingsEntries raw))) := by
  rw [readSettings_eq]
  exact Settings.misfitIff_ofValues _ _

theorem misfitIff_ofValue (raw : Value) : MisfitIff (ofValue raw) (Misfit raw) := by
  rw [ofValue_eq]
  refine ((Value.misfitIff_toParams raw).bind fun entries _ =>
    (misfitIff_readSettings entries).bind fun settings _ =>
    (Value.misfitIff_asObject raw).bind fun entries _ =>
    (Layout.misfitIff_ofRecords (graphField entries)).bind
      (R := fun graph => graph.nodes ≠ [] ∧
        (entries.getD "cycles" (.int defaultCycles)).Uncountable) fun graph _ => ?_).congr ⟨?_, ?_⟩
  · split
    · rename_i empty
      exact (FailsIff.refused rfl).congr (by simp_all)
    · rename_i some
      refine ((Value.misfitIff_toInt _).bind (R := fun _ => False) fun cycles _ => ?_).congr
        (by simp_all)
      split
      · exact FailsIff.refused rfl
      · exact FailsIff.ok _
  · rintro (unlisted | ⟨entries, listed, misfit | ⟨settings, set, none | ⟨whole, object, later⟩⟩⟩)
    · exact .entries unlisted
    · exact .settings listed misfit
    · exact .whole listed set none
    · cases Value.asObject_eq_ok_iff.mp object
      cases listed
      rcases later with misfit | ⟨graph, read, filled, uncountable⟩
      · exact .graph set misfit
      · exact .cycles set read filled uncountable
  · rintro (unlisted | ⟨listed, misfit⟩ | ⟨listed, set, none⟩ | ⟨set, misfit⟩ |
      ⟨set, read, filled, uncountable⟩)
    · exact .inl unlisted
    · exact .inr ⟨_, listed, .inl misfit⟩
    · exact .inr ⟨_, listed, .inr ⟨_, set, .inl none⟩⟩
    · exact .inr ⟨_, rfl, .inr ⟨_, set, .inr ⟨_, rfl, .inl misfit⟩⟩⟩
    · exact .inr ⟨_, rfl, .inr ⟨_, set, .inr ⟨_, rfl, .inr ⟨_, read, filled, uncountable⟩⟩⟩⟩

end Configuration

end Flowgraph
