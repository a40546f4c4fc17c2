import Flowgraph.Fault.Kind
import Flowgraph.Proofs.Configuration.Records
import Flowgraph.Proofs.Json.Reader
import Mathlib.Data.List.Basic

/-!
# Which graph records are accepted

A graph is accepted if every node record names its node and a type and every
edge record names both ends.  Otherwise the first record that does not is
refused, nodes before edges.
-/

namespace Flowgraph

namespace Layout

/-! ## Records in order -/

/-- A node record names its node and the type of its block. -/
def NamesNode (item : Params) : Prop :=
  (item.get "id").isGiven = true ∧ (typeField item).isGiven = true

/-- An edge record names the nodes at both of its ends. -/
def NamesEnds (item : Params) : Prop :=
  (item.get "source").isGiven = true ∧ (item.get "target").isGiven = true

instance : DecidablePred NamesNode := fun _ => inferInstanceAs (Decidable (_ ∧ _))

instance : DecidablePred NamesEnds := fun _ => inferInstanceAs (Decidable (_ ∧ _))

/-- What an optional text says, however long its integers are. -/
def writtenText : Value → Option String
  | .null => none
  | v => some v.inFull

def nodeOf (item : Params) : Graph.Node where
  id := (item.get "id").inFull
  blockType := (typeField item).inFull
  params := ((blockFields item).get "params").entries?.getD []
  label := writtenText ((blockFields item).get "label")

/-- What an edge record says; an edge without id is named after its position. -/
def edgeOf (index : Nat) (item : Params) : Graph.Edge where
  id := ((item.get "id").orElse (.text s!"e{index}")).inFull
  source := (item.get "source").inFull
  target := (item.get "target").inFull
  sourceHandle := writtenText (item.getD "sourceHandle" (item.get "source_handle"))
  targetHandle := writtenText (item.getD "targetHandle" (item.get "target_handle"))

def nodeTexts (item : Params) : List Value :=
  [item.get "id", typeField item, (blockFields item).get "label"]

def edgeTexts (item : Params) : List Value :=
  [item.get "id", item.get "source", item.get "target",
    item.getD "sourceHandle" (item.get "source_handle"),
    item.getD "targetHandle" (item.get "target_handle")]

def nodeFault (index : Nat) (item : Params) : Fault :=
  if (item.get "id").isGiven then .nodeWithoutType index (item.get "id").inFull
  else .nodeWithoutId index

def missingEnd (item : Params) : String :=
  if (item.get "source").isGiven then "target" else "source"

def edgeFault (index : Nat) (item : Params) : Fault :=
  .edgeWithout index (missingEnd item)

theorem kind_nodeFault (index : Nat) (item : Params) : (nodeFault index item).kind = .value := by
  unfold nodeFault
  split <;> rfl

theorem message_nodeFault (index : Nat) (item : Params) :
    (nodeFault index item).message = if (item.get "id").isGiven
      then s!"graph.nodes[{index}] ('{(nodeOf item).id}') has no blockType"
      else s!"graph.nodes[{index}] has no id" := by
  unfold nodeFault
  split <;> rfl

theorem message_edgeFault (index : Nat) (item : Params) :
    (edgeFault index item).message = s!"graph.edges[{index}] has no {missingEnd item}" :=
  rfl

def Mapping (v : Value) : Prop :=
  v = .null ∨ ∃ entries, v = .object entries

theorem Mapping.toParams_orElse {v : Value} (mapping : Mapping v) :
    (v.orElse (.object [])).toParams = .ok (v.entries?.getD []) := by
  rcases mapping with rfl | ⟨entries, rfl⟩
  · rfl
  · cases entries <;> rfl

theorem Mapping.readViewport {v : Value} (mapping : Mapping v) :
    Layout.readViewport v = .ok v.entries? := by
  rcases mapping with rfl | ⟨entries, rfl⟩ <;> rfl

theorem optionalText_of_isWritable {v : Value} (written : v.isWritable = true) :
    optionalText v = .ok (writtenText v) := by
  cases v with
  | null => rfl
  | _ => exact congrArg (Except.map some) (Value.toText_of_isWritable written)

theorem readNode_of_mapping {item : Params} (mapping : Mapping ((blockFields item).get "params"))
    (written : ∀ v ∈ nodeTexts item, v.isWritable = true) (index : Nat) :
    readNode index (.object item) =
      if NamesNode item then .ok (nodeOf item) else .error (nodeFault index item) := by
  simp only [nodeTexts, List.forall_mem_cons, List.not_mem_nil, false_imp_iff, implies_true,
    and_true] at written
  obtain ⟨id, type, label⟩ := written
  rw [readNode_object, paramsField, mapping.toParams_orElse, Value.named_of_isWritable id,
    Value.toText_of_isWritable id, Value.toText_of_isWritable type,
    optionalText_of_isWritable label]
  by_cases named : (item.get "id").isGiven = true
  · by_cases typed : (typeField item).isGiven = true
    · simp [NamesNode, named, typed, nodeOf, Except.map, bind, Except.bind]
    · simp [NamesNode, named, typed, nodeFault]
  · simp [NamesNode, named, nodeFault]

theorem readFields_of_written {item : Params}
    (written : ∀ v ∈ edgeTexts item, v.isWritable = true) (index : Nat) :
    readFields index item = .ok (edgeOf index item) := by
  simp only [edgeTexts, List.forall_mem_cons, List.not_mem_nil, false_imp_iff, implies_true,
    and_true] at written
  obtain ⟨id, source, target, sourceHandle, targetHandle⟩ := written
  have named : ((item.get "id").orElse (.text s!"e{index}")).isWritable = true :=
    Value.isWritable_orElse id rfl
  simp only [readFields, Value.toText_of_isWritable named, Value.toText_of_isWritable source,
    Value.toText_of_isWritable target, optionalText_of_isWritable sourceHandle,
    optionalText_of_isWritable targetHandle, bind, Except.bind]
  rfl

theorem readEdge_of_written {item : Params}
    (written : ∀ v ∈ edgeTexts item, v.isWritable = true) (index : Nat) :
    readEdge index (.object item) =
      if NamesEnds item then .ok (edgeOf index item) else .error (edgeFault index item) := by
  rw [readEdge_object, readFields_of_written written]
  by_cases left : (item.get "source").isGiven = true
  · by_cases entered : (item.get "target").isGiven = true
    · simp [NamesEnds, left, entered]
    · simp [NamesEnds, left, entered, edgeFault, missingEnd]
  · simp [NamesEnds, left, edgeFault, missingEnd]

/-! ## Lists of records -/

/-- Of the records of a list the first that is not in order, and where it stands. -/
structure First (good : Params → Prop) (items : List Params) (i : Nat) (item : Params) : Prop where
  there : items[i]? = some item
  bad : ¬ good item
  before : ∀ j < i, ∀ other, items[j]? = some other → good other

variable {β : Type} {good : Params → Prop} {read : Nat → Value → Except Fault β}
  {make : Nat → Params → β} {refuse : Nat → Params → Fault} {items : List Params}

theorem First.not_nil {i : Nat} {item : Params} : ¬ First good [] i item := by
  intro first
  have there := first.there
  simp at there

theorem First.tail {v : Params} {i : Nat} {item : Params} (first : First good (v :: items) i item)
    (now : good v) : ∃ j, i = j + 1 ∧ First good items j item := by
  cases i with
  | zero =>
      have same : v = item := by simpa using first.there
      exact absurd (same ▸ now) first.bad
  | succ j =>
      refine ⟨j, rfl, by simpa using first.there, first.bad, fun k less other there => ?_⟩
      exact first.before (k + 1) (by omega) other (by simpa using there)

theorem exists_first (some : ¬ ∀ item ∈ items, good item) : ∃ i item, First good items i item := by
  induction items with
  | nil => exact absurd (by simp) some
  | cons v rest ih =>
      by_cases now : good v
      · obtain ⟨i, item, first⟩ := ih fun later => some (List.forall_mem_cons.mpr ⟨now, later⟩)
        refine ⟨i + 1, item, by simpa using first.there, first.bad, fun j less other there => ?_⟩
        cases j with
        | zero =>
            have same : v = other := by simpa using there
            exact same ▸ now
        | succ j => exact first.before j (by omega) other (by simpa using there)
      · exact ⟨0, v, rfl, now, fun j less => absurd less (Nat.not_lt_zero j)⟩

theorem First.not_all {i : Nat} {item : Params} (first : First good items i item) :
    ¬ ∀ item ∈ items, good item :=
  fun all => first.bad (all item (List.mem_of_getElem? first.there))

section

variable [DecidablePred good]
  (each : ∀ i, ∀ item ∈ items, read i (.object item) =
    if good item then .ok (make i item) else .error (refuse i item))

include each

theorem readAll_of_good (all : ∀ item ∈ items, good item) (index : Nat) :
    readAll read index (items.map .object) = .ok (items.mapIdx fun i => make (index + i)) := by
  induction items generalizing index with
  | nil => rfl
  | cons v rest ih =>
      obtain ⟨now, later⟩ := List.forall_mem_cons.mp all
      have first := each index v List.mem_cons_self
      rw [if_pos now] at first
      have others := ih (fun i item mem => each i item (List.mem_cons_of_mem v mem)) later
        (index + 1)
      rw [List.map_cons, readAll, first, others, List.mapIdx_cons]
      simp [Nat.add_comm, Nat.add_left_comm, pure, Except.pure, bind, Except.bind]

theorem readAll_of_first {i : Nat} {item : Params} (first : First good items i item)
    (index : Nat) :
    readAll read index (items.map .object) = .error (refuse (index + i) item) := by
  induction items generalizing index i with
  | nil => exact absurd first First.not_nil
  | cons v rest ih =>
      have head := each index v List.mem_cons_self
      by_cases now : good v
      · rw [if_pos now] at head
        obtain ⟨j, rfl, later⟩ := first.tail now
        have others := ih (fun i item mem => each i item (List.mem_cons_of_mem v mem)) later
          (index + 1)
        rw [List.map_cons, readAll, head, others, Nat.add_right_comm index 1 j]
        rfl
      · rw [if_neg now] at head
        obtain rfl : i = 0 := by
          by_contra some
          exact now (first.before 0 (by omega) v rfl)
        have same : v = item := by simpa using first.there
        rw [List.map_cons, readAll, head, same]
        rfl

end

/-! ## Graphs -/

def Lists (v : Value) (items : List Params) : Prop :=
  (v = .null ∧ items = []) ∨ v = .list (items.map .object)

theorem Lists.itemsUnder {data : Params} {key : String} {items : List Params}
    (lists : Lists (data.get key) items) :
    Layout.itemsUnder data key = .ok (items.map .object) := by
  unfold Layout.itemsUnder
  rcases lists with ⟨null, rfl⟩ | listed
  · rw [null]
    rfl
  · rw [listed]
    cases items <;> rfl

/--
The node records and the edge records of a graph whose optional parts are mappings.
What becomes a text has no integer that is too long for one, as in every document
(`Tabled.of_parse`).
-/
structure Tabled (data : Params) (nodes edges : List Params) : Prop where
  nodeList : Lists (data.get "nodes") nodes
  edgeList : Lists (data.get "edges") edges
  params : ∀ item ∈ nodes, Mapping ((blockFields item).get "params")
  viewport : Mapping (data.get "viewport")
  nodesWritten : ∀ item ∈ nodes, ∀ v ∈ nodeTexts item, v.isWritable = true
  edgesWritten : ∀ item ∈ edges, ∀ v ∈ edgeTexts item, v.isWritable = true

theorem Lists.isWritable {v : Value} {items : List Params} (lists : Lists v items)
    (written : v.isWritable = true) : ∀ item ∈ items, (Value.object item).isWritable = true := by
  rcases lists with ⟨-, rfl⟩ | rfl
  · nofun
  · rw [Value.isWritable] at written
    exact fun item mem => Value.isWritable_of_mem written _ (List.mem_map_of_mem mem)

theorem isWritable_blockFields {item : Params} (written : (Value.object item).isWritable = true) :
    (Value.object (blockFields item)).isWritable = true := by
  unfold blockFields
  split
  · rename_i found
    exact found ▸ Params.isWritable_get written "data"
  · exact written

theorem isWritable_nodeTexts {item : Params} (written : (Value.object item).isWritable = true) :
    ∀ v ∈ nodeTexts item, v.isWritable = true := by
  have fields := isWritable_blockFields written
  have type : (typeField item).isWritable = true :=
    Params.isWritable_getD fields (Params.isWritable_get fields _) _
  simp [nodeTexts, Params.isWritable_get, written, fields, type]

theorem isWritable_edgeTexts {item : Params} (written : (Value.object item).isWritable = true) :
    ∀ v ∈ edgeTexts item, v.isWritable = true := by
  simp [edgeTexts, Params.isWritable_get, Params.isWritable_getD, written]

/-- In a document no integer is too long, so that only the shape of its records matters. -/
theorem Tabled.of_parse {text : String} {data : Params} {nodes edges : List Params}
    (parsed : Json.parse text = .ok (.object data))
    (nodeList : Lists (data.get "nodes") nodes) (edgeList : Lists (data.get "edges") edges)
    (params : ∀ item ∈ nodes, Mapping ((blockFields item).get "params"))
    (viewport : Mapping (data.get "viewport")) : Tabled data nodes edges := by
  have written := (Json.stated_of_parse parsed).written
  exact
    { nodeList, edgeList, params, viewport
      nodesWritten := fun item mem =>
        isWritable_nodeTexts (nodeList.isWritable (Params.isWritable_get written _) item mem)
      edgesWritten := fun item mem =>
        isWritable_edgeTexts (edgeList.isWritable (Params.isWritable_get written _) item mem) }

/-- What is amiss with a graph: its first node record that is not in order, else its first edge. -/
inductive Offence (nodes edges : List Params) : Fault → Prop where
  | node {i : Nat} {item : Params} : First NamesNode nodes i item →
      Offence nodes edges (nodeFault i item)
  | edge {i : Nat} {item : Params} : (∀ node ∈ nodes, NamesNode node) →
      First NamesEnds edges i item → Offence nodes edges (edgeFault i item)

variable {data : Params} {nodes edges : List Params}

theorem sound_or_offence (nodes edges : List Params) :
    ((∀ item ∈ nodes, NamesNode item) ∧ ∀ item ∈ edges, NamesEnds item) ∨
      ∃ fault, Offence nodes edges fault := by
  by_cases named : ∀ item ∈ nodes, NamesNode item
  · by_cases joined : ∀ item ∈ edges, NamesEnds item
    · exact .inl ⟨named, joined⟩
    · obtain ⟨i, item, first⟩ := exists_first joined
      exact .inr ⟨_, .edge named first⟩
  · obtain ⟨i, item, first⟩ := exists_first named
    exact .inr ⟨_, .node first⟩

theorem Tabled.readNodes (tabled : Tabled data nodes edges) (i : Nat) :
    ∀ item ∈ nodes, readNode i (.object item) =
      if NamesNode item then .ok (nodeOf item) else .error (nodeFault i item) :=
  fun item mem => readNode_of_mapping (tabled.params item mem) (tabled.nodesWritten item mem) i

theorem Tabled.readEdges (tabled : Tabled data nodes edges) (i : Nat) :
    ∀ item ∈ edges, readEdge i (.object item) =
      if NamesEnds item then .ok (edgeOf i item) else .error (edgeFault i item) :=
  fun item mem => readEdge_of_written (tabled.edgesWritten item mem) i

theorem Tabled.readAll_nodes (tabled : Tabled data nodes edges)
    (named : ∀ item ∈ nodes, NamesNode item) :
    readAll readNode 0 (nodes.map .object) = .ok (nodes.map nodeOf) := by
  rw [readAll_of_good tabled.readNodes named 0]
  congr 1
  exact List.ext_getElem (by simp) (by simp)

theorem Tabled.accepted (tabled : Tabled data nodes edges)
    (named : ∀ item ∈ nodes, NamesNode item) (joined : ∀ item ∈ edges, NamesEnds item) :
    ofRecords (.object data) =
      .ok ⟨nodes.map nodeOf, edges.mapIdx edgeOf, (data.get "viewport").entries?⟩ := by
  have edgesRead := readAll_of_good tabled.readEdges joined 0
  simp only [Nat.zero_add] at edgesRead
  rw [ofRecords_object, tabled.nodeList.itemsUnder, tabled.edgeList.itemsUnder,
    tabled.viewport.readViewport]
  simp only [bind, Except.bind, tabled.readAll_nodes named, edgesRead]

/-- A graph is refused for what is first amiss with it. -/
theorem Tabled.refused (tabled : Tabled data nodes edges) {fault : Fault}
    (offence : Offence nodes edges fault) : ofRecords (.object data) = .error fault := by
  rw [ofRecords_object, tabled.nodeList.itemsUnder, tabled.edgeList.itemsUnder]
  cases offence with
  | node first =>
      have read := readAll_of_first tabled.readNodes first 0
      rw [Nat.zero_add] at read
      simp only [bind, Except.bind, read]
  | edge named first =>
      have read := readAll_of_first tabled.readEdges first 0
      rw [Nat.zero_add] at read
      simp only [bind, Except.bind, tabled.readAll_nodes named, read]

/-! ## Where the fields of a block are kept -/

/-- A node record keeps the fields of its block under `data`, another one keeps them itself. -/
structure SameFields (nested flat : Params) : Prop where
  nest : ∃ fields : Params, nested.get "data" = .object fields ∧
    ∀ key ∈ ["blockType", "block_type", "params", "label"], flat.get? key = fields.get? key
  plain : ∀ entries, flat.get "data" ≠ .object entries
  id_eq : flat.get "id" = nested.get "id"

theorem SameFields.readNode {nested flat : Params} (same : SameFields nested flat) (index : Nat) :
    Layout.readNode index (.object nested) = Layout.readNode index (.object flat) := by
  obtain ⟨fields, there, equal⟩ := same.nest
  have inner : blockFields nested = fields := by
    unfold blockFields
    rw [there]
  have outer : blockFields flat = flat := by
    unfold blockFields
    split
    · next entries there => exact absurd there (same.plain entries)
    · rfl
  simp only [List.forall_mem_cons, List.not_mem_nil, false_implies, implies_true, and_true]
    at equal
  obtain ⟨type, type', params, label⟩ := equal
  have typed : typeField nested = typeField flat := by
    simp only [typeField, inner, outer, Params.getD, Params.get, type, type']
  have given : paramsField nested = paramsField flat := by
    simp only [paramsField, inner, outer, Params.get, params]
  have labelled : (blockFields nested).get "label" = (blockFields flat).get "label" := by
    simp only [inner, outer, Params.get, label]
  rw [readNode_object, readNode_object, same.id_eq, typed, given, labelled]

/-! ## What is accepted -/

/--
Records of a graph are accepted exactly if every node record names a node and a
type and every edge record names both ends.  Then each record gives a node or
an edge, in order, and an edge without id is named after its position.  If they
are refused, then for their first node record that is not in order, or else
their first such edge record, and the text names its position.  A node record
may keep the fields of its block under `data` or itself.
-/
theorem ofRecords_accepts (tabled : Tabled data nodes edges) :
    ((∃ layout, ofRecords (.object data) = .ok layout) ↔
      (∀ item ∈ nodes, NamesNode item) ∧ ∀ item ∈ edges, NamesEnds item) ∧
    (∀ layout : Layout, ofRecords (.object data) = .ok layout →
      layout = ⟨nodes.map nodeOf, edges.mapIdx edgeOf, (data.get "viewport").entries?⟩ ∧
      ∀ (i : Nat) (item : Params), edges[i]? = some item → (item.get "id").isGiven = false →
        layout.edges[i]?.map Graph.Edge.id = some s!"e{i}") ∧
    (∀ fault, ofRecords (.object data) = .error fault ↔ Offence nodes edges fault) ∧
    (∀ fault, Offence nodes edges fault → fault.kind = .value ∧
      ((∃ i item, First NamesNode nodes i item ∧
          fault.message = if (item.get "id").isGiven
            then s!"graph.nodes[{i}] ('{(nodeOf item).id}') has no blockType"
            else s!"graph.nodes[{i}] has no id") ∨
        ∃ i item, (∀ node ∈ nodes, NamesNode node) ∧ First NamesEnds edges i item ∧
          fault.message = s!"graph.edges[{i}] has no {missingEnd item}")) ∧
    ∀ index nested flat, SameFields nested flat →
      readNode index (.object nested) = readNode index (.object flat) := by
  have excluded : ∀ fault, Offence nodes edges fault →
      ¬ ((∀ item ∈ nodes, NamesNode item) ∧ ∀ item ∈ edges, NamesEnds item) := by
    intro fault offence sound
    cases offence with
    | node first => exact first.not_all sound.1
    | edge named first => exact first.not_all sound.2
  refine ⟨⟨?_, ?_⟩, ?_, fun fault => ⟨?_, tabled.refused⟩, ?_, fun index _ _ same =>
    same.readNode index⟩
  · rintro ⟨layout, done⟩
    rcases sound_or_offence nodes edges with sound | ⟨fault, offence⟩
    · exact sound
    · rw [tabled.refused offence] at done
      cases done
  · rintro ⟨named, joined⟩
    exact ⟨_, tabled.accepted named joined⟩
  · intro layout done
    rcases sound_or_offence nodes edges with ⟨named, joined⟩ | ⟨fault, offence⟩
    · rw [tabled.accepted named joined] at done
      cases done
      refine ⟨rfl, fun i item there unnamed => ?_⟩
      simp [there, edgeOf, Value.orElse, unnamed, Value.inFull]
    · rw [tabled.refused offence] at done
      cases done
  · intro failed
    rcases sound_or_offence nodes edges with ⟨named, joined⟩ | ⟨other, offence⟩
    · rw [tabled.accepted named joined] at failed
      cases failed
    · rw [tabled.refused offence] at failed
      cases failed
      exact offence
  · intro fault offence
    cases offence with
    | @node i item first =>
        exact ⟨kind_nodeFault i item, .inl ⟨i, item, first, message_nodeFault i item⟩⟩
    | @edge i item named first =>
        exact ⟨rfl, .inr ⟨i, item, named, first, message_edgeFault i item⟩⟩

def scopeNodes : List Params :=
  [[("id", .text "a"), ("data", .object [("blockType", .text "DAC")])],
    [("id", .text "b"), ("block_type", .text "SCOPE"), ("params", .null)]]

def scopeEdges : List Params :=
  [[("source", .text "a"), ("target", .text "b")]]

theorem tabled_scope : Tabled [("nodes", .list (scopeNodes.map .object)),
    ("edges", .list (scopeEdges.map .object))] scopeNodes scopeEdges where
  nodeList := .inr rfl
  edgeList := .inr rfl
  params := List.forall_mem_cons.mpr ⟨.inl rfl, List.forall_mem_cons.mpr ⟨.inl rfl, by simp⟩⟩
  viewport := .inl rfl
  nodesWritten := by decide
  edgesWritten := by decide

theorem ofRecords_accepts_scope :
    ∃ layout : Layout, ofRecords (.object [("nodes", .list (scopeNodes.map .object)),
      ("edges", .list (scopeEdges.map .object))]) = .ok layout ∧
      layout.nodes = scopeNodes.map nodeOf ∧ layout.edges[0]?.map Graph.Edge.id = some "e0" := by
  obtain ⟨returns, gives, -⟩ := ofRecords_accepts tabled_scope
  obtain ⟨layout, done⟩ := returns.mpr ⟨by decide, by decide⟩
  obtain ⟨same, named⟩ := gives layout done
  exact ⟨layout, done, by rw [same], named 0 _ rfl rfl⟩

end Layout

end Flowgraph
