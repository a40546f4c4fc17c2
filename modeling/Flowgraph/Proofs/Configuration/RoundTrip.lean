import Flowgraph.Proofs.Configuration.Storing
import Flowgraph.Proofs.Json.Reader
import Flowgraph.Proofs.Json.Writer

/-!
# Configurations that are saved and loaded again

A document has texts for keys, and so has every configuration that is loaded from
it as long as parameters and viewport are objects: only lists of pairs bring in
other keys, which no document keeps.
-/

namespace Flowgraph

namespace Value

def Mapping (v : Value) : Prop :=
  v = .null ∨ ∃ entries, v = .object entries

theorem textKeyed_orElse {v fallback : Value} (keyed : v.TextKeyed) (other : fallback.TextKeyed) :
    (v.orElse fallback).TextKeyed := by
  unfold orElse
  split <;> assumption

theorem textKeyed_ofKey (key : Key) : (ofKey key).TextKeyed := by
  cases key <;> constructor

theorem textKeyed_of_elements {v : Value} {items : List Value} (keyed : v.TextKeyed)
    (done : v.elements = .ok items) : ∀ item ∈ items, item.TextKeyed := by
  cases v with
  | list items =>
      cases done
      cases keyed with
      | list keyed => exact keyed
  | text s =>
      cases done
      intro item mem
      obtain ⟨c, -, rfl⟩ := List.mem_map.mp mem
      exact .text _
  | object entries =>
      cases done
      intro item mem
      obtain ⟨entry, -, rfl⟩ := List.mem_map.mp mem
      exact textKeyed_ofKey _
  | _ => cases done

end Value

namespace Layout

variable {index : Nat}

structure TextKeyed (layout : Layout) : Prop where
  params : ∀ n ∈ layout.nodes, (Value.object n.params).TextKeyed
  viewport : ∀ entries, layout.viewport = some entries → (Value.object entries).TextKeyed

/-- In a graph record, parameters and viewport are objects, null or missing. -/
structure Plain (data : Params) : Prop where
  params : ∀ items, itemsUnder data "nodes" = .ok items → ∀ item : Params, .object item ∈ items →
    ((blockFields item).get "params").Mapping
  viewport : (data.get "viewport").Mapping

theorem textKeyed_blockFields {item : Params} (keyed : (Value.object item).TextKeyed) :
    (Value.object (blockFields item)).TextKeyed := by
  unfold blockFields
  split
  · rename_i same
    rw [← same]
    exact Params.textKeyed_get keyed "data"
  · exact keyed

/-- Parameters that are an object or missing are read as they stand. -/
theorem textKeyed_of_readNode {item : Params} {n : Graph.Node}
    (keyed : (Value.object item).TextKeyed) (plain : ((blockFields item).get "params").Mapping)
    (done : readNode index (.object item) = .ok n) : (Value.object n.params).TextKeyed := by
  rw [readNode_object] at done
  split at done
  · cases done
  · split at done
    · cases done
    · obtain ⟨_, -, done⟩ := of_bind_eq_ok done
      obtain ⟨_, -, done⟩ := of_bind_eq_ok done
      obtain ⟨params, read, done⟩ := of_bind_eq_ok done
      obtain ⟨_, -, rfl⟩ := of_map_eq_ok done
      have field := Params.textKeyed_get (textKeyed_blockFields keyed) "params"
      unfold paramsField at read
      rcases plain with null | ⟨entries, object⟩
      · rw [null] at read
        cases read
        exact Params.textKeyed_object_iff.mpr nofun
      · rw [object, Value.toParams_orElse] at read
        cases read
        rwa [object] at field

theorem textKeyed_of_ofRecords {data : Params} {layout : Layout}
    (keyed : (Value.object data).TextKeyed) (plain : Plain data)
    (done : ofRecords (.object data) = .ok layout) : layout.TextKeyed := by
  obtain ⟨_, nodes, edges, same, listed, read, -, -, seen⟩ := of_ofRecords done
  cases same
  constructor
  · refine forall_of_readAll read fun i v mem n done => ?_
    have field : ((data.get "nodes").orElse (.list [])).TextKeyed :=
      Value.textKeyed_orElse (Params.textKeyed_get keyed "nodes") (.list nofun)
    cases v with
    | object item =>
        exact textKeyed_of_readNode (Value.textKeyed_of_elements field listed _ mem)
          (plain.params nodes listed item mem) done
    | _ => cases done
  · intro entries some
    have field := Params.textKeyed_get keyed "viewport"
    rw [some] at seen
    rcases plain.viewport with null | ⟨entries', object⟩
    · rw [null] at seen
      cases seen
    · rw [object] at seen field
      cases seen
      exact field

theorem named_optionalEntry (key : String) (content : Option String) :
    ∀ entry ∈ optionalEntry key content, Params.Named entry := by
  cases content with
  | none => exact nofun
  | some s =>
      intro entry mem
      cases List.mem_singleton.mp mem
      exact ⟨⟨key, rfl⟩, .text s⟩

theorem textKeyed_nodeRecord {n : Graph.Node} (keyed : (Value.object n.params).TextKeyed) :
    (nodeRecord n).TextKeyed := by
  refine Params.textKeyed_object_iff.mpr (List.forall_mem_append.mpr ⟨?_, named_optionalEntry _ _⟩)
  simp only [List.forall_mem_cons, List.not_mem_nil, false_imp_iff, implies_true, and_true]
  exact ⟨⟨⟨_, rfl⟩, .text _⟩, ⟨⟨_, rfl⟩, .text _⟩, ⟨⟨_, rfl⟩, keyed⟩⟩

theorem textKeyed_edgeRecord (e : Graph.Edge) : (edgeRecord e).TextKeyed := by
  refine Params.textKeyed_object_iff.mpr (List.forall_mem_append.mpr
    ⟨List.forall_mem_append.mpr ⟨?_, named_optionalEntry _ _⟩, named_optionalEntry _ _⟩)
  simp only [List.forall_mem_cons, List.not_mem_nil, false_imp_iff, implies_true, and_true]
  exact ⟨⟨⟨_, rfl⟩, .text _⟩, ⟨⟨_, rfl⟩, .text _⟩, ⟨⟨_, rfl⟩, .text _⟩⟩

theorem textKeyed_toRecords {layout : Layout} (keyed : layout.TextKeyed) :
    layout.toRecords.TextKeyed := by
  refine Params.textKeyed_object_iff.mpr (List.forall_mem_append.mpr ⟨?_, ?_⟩)
  · simp only [List.forall_mem_cons, List.not_mem_nil, false_imp_iff, implies_true, and_true]
    refine ⟨⟨⟨_, rfl⟩, .list (List.forall_mem_map.mpr ?_)⟩,
      ⟨⟨_, rfl⟩, .list (List.forall_mem_map.mpr ?_)⟩⟩
    · exact fun n mem => textKeyed_nodeRecord (keyed.params n mem)
    · exact fun e _ => textKeyed_edgeRecord e
  · cases seen : layout.viewport with
    | none => exact nofun
    | some viewport =>
        intro entry mem
        cases List.mem_singleton.mp mem
        exact ⟨⟨_, rfl⟩, keyed.viewport viewport seen⟩

end Layout

namespace Configuration

/-- A document whose graph has objects, null or nothing for parameters and viewport. -/
def Plain (raw : Value) : Prop :=
  ∀ entries data : Params, raw = .object entries →
    (entries.get "graph").orElse (.object []) = .object data → Layout.Plain data

theorem textKeyed_of_ofValue {raw : Value} {c : Configuration} (keyed : raw.TextKeyed)
    (plain : Plain raw) (done : ofValue raw = .ok c) : c.graph.TextKeyed := by
  obtain ⟨entries, cycles, rfl, -, read, -⟩ := of_ofValue done
  have field : ((entries.get "graph").orElse (.object [])).TextKeyed :=
    Value.textKeyed_orElse (Params.textKeyed_get keyed "graph") (.object nofun nofun)
  obtain ⟨data, -, -, object, -⟩ := Layout.of_ofRecords read
  rw [object] at read field
  exact Layout.textKeyed_of_ofRecords field (plain entries data rfl object) read

theorem textKeyed_toValue {c : Configuration} (keyed : c.graph.TextKeyed) :
    c.toValue.TextKeyed := by
  refine Params.textKeyed_object_iff.mpr ?_
  simp only [List.forall_mem_cons, List.not_mem_nil, false_imp_iff, implies_true, and_true]
  exact ⟨⟨⟨_, rfl⟩, .int _⟩, ⟨⟨_, rfl⟩, .int _⟩, ⟨⟨_, rfl⟩, .int _⟩,
    ⟨⟨_, rfl⟩, Layout.textKeyed_toRecords keyed⟩⟩

/--
A configuration that is loaded from a file with objects, null or nothing for
parameters and viewport is loaded again from any file that it is saved to, if
its document can be read back at all when its keys are texts.  And any graph that
is read from records is read from its own records, which stay the same from then on.
-/
theorem load_saved {files : Files} {path : String} {c : Configuration}
    (loaded : load files path = .ok c)
    (plain : ∀ text raw, files.readText path = .ok text → Json.parse text = .ok raw → Plain raw)
    (reloads : c.toValue.TextKeyed → Json.parse c.toText = .ok c.toValue) :
    (∀ (saved : Files) (target : String), target.toList.contains '\x00' = false →
      saved target = .file c.toText.toUTF8.data.toList → load saved target = .ok c) ∧
    ∀ data layout, Layout.ofRecords data = .ok layout →
      Layout.ofRecords layout.toRecords = .ok layout ∧
      ∀ again, Layout.ofRecords layout.toRecords = .ok again →
        again.toRecords = layout.toRecords := by
  obtain ⟨text, read, made⟩ := of_bind_eq_ok loaded
  obtain ⟨raw, parsed, made⟩ := of_bind_eq_ok made
  have keyed : c.toValue.TextKeyed := textKeyed_toValue
    (textKeyed_of_ofValue (Json.stated_of_parse parsed).keyed (plain text raw read parsed) made)
  constructor
  · intro saved target named holds
    have again : saved.readText target = .ok c.toText :=
      Files.readText_of_file named holds (Json.unix_pretty 0 c.toValue)
    have stored : ofValue c.toValue = .ok c := ofValue_toValue (storable_of_ofValue made)
    simp only [load, again, ofText, reloads keyed, stored, bind, Except.bind]
  · intro data layout done
    have back := Layout.ofRecords_toRecords (Layout.storable_of_ofRecords done)
    refine ⟨back, fun again same => ?_⟩
    rw [back] at same
    rw [Except.ok.inj same]

def labelled : String :=
  "\x7b\"graph\":\x7b\"nodes\":[\x7b\"id\":1,\"data\":\x7b\"blockType\":\"X\",\"label\":\"\"\x7d\x7d]\x7d\x7d"

theorem load_saved_labelled :
    let c : Configuration := ⟨.standard, ⟨[⟨"1", "X", [], some ""⟩], [], none⟩, 8⟩
    load (fun _ => .file labelled.toUTF8.data.toList) "config.json" = .ok c ∧
      load (fun _ => .file c.toText.toUTF8.data.toList) "saved.json" = .ok c := by
  intro c
  let raw : Value := .object [("graph", .object [("nodes", .list [.object [("id", .int 1),
    ("data", .object [("blockType", .text "X"), ("label", .text "")])]])])]
  have read : Files.readText (fun _ => .file labelled.toUTF8.data.toList) "config.json" =
      .ok labelled := Files.readText_of_file (by decide) rfl (by decide)
  have parsed : Json.parse labelled = .ok raw := by cbv
  have accepted : ofValue raw = .ok c := by rfl
  have loaded : load (fun _ => .file labelled.toUTF8.data.toList) "config.json" = .ok c := by
    simp only [load, read, ofText, parsed, accepted, bind, Except.bind]
  have reloads : Json.parse c.toText = .ok c.toValue := by cbv
  have plain : Plain raw := by
    intro entries data object field
    dsimp only [raw] at object
    cases object
    cases field
    refine ⟨?_, .inl rfl⟩
    rintro items ⟨⟩ item mem
    cases List.mem_singleton.mp mem
    exact .inl rfl
  refine ⟨loaded, (load_saved loaded ?_ fun _ => reloads).1 _ "saved.json" (by decide) rfl⟩
  intro text raw' read' parsed'
  rw [read] at read'
  cases read'
  rw [parsed] at parsed'
  cases parsed'
  exact plain

end Configuration

end Flowgraph
