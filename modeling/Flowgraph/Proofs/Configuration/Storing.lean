import Flowgraph.Proofs.Configuration.Records
import Mathlib.Tactic.SplitIfs

/-!
# Configurations as documents

Reading asks of records that nodes, their types and edges have names, and of
documents that there is a node and a cycle.  A configuration that has these is
read from the document that it is stored as, and what is read has them.
-/

namespace Flowgraph

namespace Number

theorem text_ne_empty (x : Float) : text x ≠ "" := by
  unfold text
  split
  · split_ifs <;> decide
  · dsimp only
    split
    · simp
    · refine fun empty => ?_
      have body := (String.append_eq_empty_iff.mp empty).2
      split at body
      · simp at body
      · split at body <;> simp at body

theorem toString_int_ne_empty (n : Int) : toString n ≠ "" := by
  cases n with
  | ofNat n => exact Nat.repr_ne_empty
  | negSucc n =>
      show "-" ++ toString (n + 1) ≠ ""
      simp

end Number

namespace Value

theorem inFull_ne_empty {v : Value} (given : v.isGiven = true) : v.inFull ≠ "" := by
  cases v with
  | null => cases given
  | bool b =>
      cases b with
      | false => cases given
      | true => decide
  | int n => exact Number.toString_int_ne_empty n
  | float x => exact Number.text_ne_empty x
  | text s =>
      show s ≠ ""
      simpa [isGiven] using given
  | list items =>
      show "[" ++ ", ".intercalate (shownItems items) ++ "]" ≠ ""
      simp
  | object entries =>
      show "\x7b" ++ ", ".intercalate (shownEntries entries) ++ "\x7d" ≠ ""
      simp

theorem toText_ne_empty {v : Value} {s : String} (given : v.isGiven = true)
    (done : v.toText = .ok s) : s ≠ "" := by
  rw [eq_inFull_of_toText done]
  exact inFull_ne_empty given

/-- An object that counts as nothing is empty, so a fallback to the empty one changes nothing. -/
theorem toParams_orElse (entries : Params) :
    ((object entries).orElse (object [])).toParams = .ok entries := by
  cases entries <;> rfl

theorem elements_orElse (items : List Value) :
    ((list items).orElse (list [])).elements = .ok items := by
  cases items <;> rfl

theorem isGiven_text {s : String} (some : s ≠ "") : (text s).isGiven = true := by
  simpa [isGiven] using some

theorem isGiven_orElse {v fallback : Value} (given : fallback.isGiven = true) :
    (v.orElse fallback).isGiven = true := by
  unfold orElse
  split <;> assumption

theorem orElse_of_isGiven {v : Value} (given : v.isGiven = true) (fallback : Value) :
    v.orElse fallback = v :=
  if_pos given

end Value

namespace Layout

variable {β : Type} {read : Nat → Value → Except Fault β} {write : β → Value} {index : Nat}

/-! ## Lists of records -/

theorem forall_of_readAll {P : β → Prop} {items : List Value} {bs : List β}
    (all : readAll read index items = .ok bs)
    (each : ∀ i, ∀ v ∈ items, ∀ b, read i v = .ok b → P b) : ∀ b ∈ bs, P b := by
  induction items generalizing index bs with
  | nil =>
      cases all
      exact nofun
  | cons v rest ih =>
      obtain ⟨b, now, all⟩ := of_bind_eq_ok all
      obtain ⟨more, later, all⟩ := of_bind_eq_ok all
      cases all
      exact List.forall_mem_cons.mpr ⟨each index v List.mem_cons_self b now,
        ih later fun i v mem => each i v (List.mem_cons_of_mem _ mem)⟩

/-- Records that are each read as what they were written from are so in a list. -/
theorem readAll_map {bs : List β} (each : ∀ i, ∀ b ∈ bs, read i (write b) = .ok b) :
    readAll read index (bs.map write) = .ok bs := by
  induction bs generalizing index with
  | nil => rfl
  | cons b rest ih =>
      have now := each index b List.mem_cons_self
      have later : readAll read (index + 1) (rest.map write) = .ok rest :=
        ih fun i b mem => each i b (List.mem_cons_of_mem _ mem)
      rw [List.map_cons, readAll, now, later]
      rfl

/-! ## Nodes and edges -/

theorem named_of_readNode {v : Value} {n : Graph.Node} (done : readNode index v = .ok n) :
    n.id ≠ "" ∧ n.blockType ≠ "" := by
  cases v with
  | object item =>
      rw [readNode_object] at done
      split at done
      · cases done
      · rename_i named
        split at done
        · cases done
        · rename_i typed
          obtain ⟨id, called, done⟩ := of_bind_eq_ok done
          obtain ⟨blockType, made, done⟩ := of_bind_eq_ok done
          obtain ⟨params, -, done⟩ := of_bind_eq_ok done
          obtain ⟨label, -, rfl⟩ := of_map_eq_ok done
          exact ⟨Value.toText_ne_empty (by simpa using named) called,
            Value.toText_ne_empty (by simpa using typed) made⟩
  | _ => cases done

theorem named_of_readEdge {v : Value} {e : Graph.Edge} (done : readEdge index v = .ok e) :
    e.id ≠ "" ∧ e.source ≠ "" ∧ e.target ≠ "" := by
  cases v with
  | object item =>
      rw [readEdge_object] at done
      split at done
      · cases done
      · rename_i left
        split at done
        · cases done
        · rename_i entered
          obtain ⟨id, called, done⟩ := of_bind_eq_ok done
          obtain ⟨source, leaves, done⟩ := of_bind_eq_ok done
          obtain ⟨target, enters, done⟩ := of_bind_eq_ok done
          obtain ⟨sourceHandle, -, done⟩ := of_bind_eq_ok done
          obtain ⟨targetHandle, -, done⟩ := of_bind_eq_ok done
          cases done
          have position : (Value.text s!"e{index}").isGiven = true :=
            Value.isGiven_text (by simp)
          exact ⟨Value.toText_ne_empty (Value.isGiven_orElse position) called,
            Value.toText_ne_empty (by simpa using left) leaves,
            Value.toText_ne_empty (by simpa using entered) enters⟩
  | _ => cases done

theorem readNode_nodeRecord {n : Graph.Node} (named : n.id ≠ "" ∧ n.blockType ≠ "") :
    readNode index (nodeRecord n) = .ok n := by
  obtain ⟨id, blockType, params, label⟩ := n
  have read : readNode index (nodeRecord ⟨id, blockType, params, label⟩) =
      if !(Value.text id).isGiven then .error (.nodeWithoutId index)
      else if !(Value.text blockType).isGiven then
        .error ((Value.text id).named (.nodeWithoutType index))
      else ((Value.object params).orElse (.object [])).toParams.map fun params =>
        ⟨id, blockType, params, label⟩ := by
    cases label <;> exact readNode_object index _
  rw [read, Value.isGiven_text named.1, Value.isGiven_text named.2, Value.toParams_orElse]
  rfl

theorem readEdge_edgeRecord {e : Graph.Edge} (named : e.id ≠ "" ∧ e.source ≠ "" ∧ e.target ≠ "") :
    readEdge index (edgeRecord e) = .ok e := by
  obtain ⟨id, source, target, sourceHandle, targetHandle⟩ := e
  have read : readEdge index (edgeRecord ⟨id, source, target, sourceHandle, targetHandle⟩) =
      if !(Value.text source).isGiven then .error (.edgeWithout index "source")
      else if !(Value.text target).isGiven then .error (.edgeWithout index "target")
      else ((Value.text id).orElse (.text s!"e{index}")).toText >>= fun id =>
        .ok ⟨id, source, target, sourceHandle, targetHandle⟩ := by
    cases sourceHandle <;> cases targetHandle <;> exact readEdge_object index _
  rw [read, Value.isGiven_text named.2.1, Value.isGiven_text named.2.2,
    Value.orElse_of_isGiven (Value.isGiven_text named.1)]
  rfl

/-! ## Graphs -/

/-- A graph whose nodes, types and edges all have names. -/
structure Storable (layout : Layout) : Prop where
  nodes : ∀ n ∈ layout.nodes, n.id ≠ "" ∧ n.blockType ≠ ""
  edges : ∀ e ∈ layout.edges, e.id ≠ "" ∧ e.source ≠ "" ∧ e.target ≠ ""

/-- The stages in which a graph has been read. -/
theorem of_ofRecords {data : Value} {layout : Layout} (done : ofRecords data = .ok layout) :
    ∃ (entries : Params) (nodes edges : List Value), data = .object entries ∧
      itemsUnder entries "nodes" = .ok nodes ∧ readAll readNode 0 nodes = .ok layout.nodes ∧
      itemsUnder entries "edges" = .ok edges ∧ readAll readEdge 0 edges = .ok layout.edges ∧
      readViewport (entries.get "viewport") = .ok layout.viewport := by
  cases data with
  | object entries =>
      rw [ofRecords_object] at done
      obtain ⟨items, listed, done⟩ := of_bind_eq_ok done
      obtain ⟨nodes, read, done⟩ := of_bind_eq_ok done
      obtain ⟨items', listed', done⟩ := of_bind_eq_ok done
      obtain ⟨edges, read', done⟩ := of_bind_eq_ok done
      obtain ⟨viewport, seen, done⟩ := of_bind_eq_ok done
      cases done
      exact ⟨entries, items, items', rfl, listed, read, listed', read', seen⟩
  | _ => cases done

theorem storable_of_ofRecords {data : Value} {layout : Layout}
    (done : ofRecords data = .ok layout) : layout.Storable := by
  obtain ⟨entries, nodes, edges, -, -, read, -, read', -⟩ := of_ofRecords done
  exact ⟨forall_of_readAll read fun _ _ _ _ => named_of_readNode,
    forall_of_readAll read' fun _ _ _ _ => named_of_readEdge⟩

theorem ofRecords_toRecords {layout : Layout} (storable : layout.Storable) :
    ofRecords layout.toRecords = .ok layout := by
  obtain ⟨nodes, edges, viewport⟩ := layout
  have nodesRead : readAll readNode 0 (nodes.map nodeRecord) = .ok nodes :=
    readAll_map fun _ n mem => readNode_nodeRecord (storable.nodes n mem)
  have edgesRead : readAll readEdge 0 (edges.map edgeRecord) = .ok edges :=
    readAll_map fun _ e mem => readEdge_edgeRecord (storable.edges e mem)
  have spec : ofRecords (toRecords ⟨nodes, edges, viewport⟩) =
      ((Value.list (nodes.map nodeRecord)).orElse (.list [])).elements >>= fun items =>
      readAll readNode 0 items >>= fun nodes =>
      ((Value.list (edges.map edgeRecord)).orElse (.list [])).elements >>= fun items =>
      readAll readEdge 0 items >>= fun edges => .ok ⟨nodes, edges, viewport⟩ := by
    cases viewport <;> rfl
  simp only [spec, Value.elements_orElse, bind, Except.bind, nodesRead, edgesRead]

end Layout

namespace Settings

theorem ofInts_of_settings (s : Settings) : ofInts s.sampleRate s.bufferSize = .ok s := by
  have rated := s.sampleRate_pos
  have sized := s.bufferSize_pos
  rw [ofInts, dif_neg (by omega), dif_neg (by omega)]
  rfl

end Settings

namespace Configuration

/-! ## Configurations -/

/-- A configuration with a storable graph, at least one node and at least one cycle. -/
structure Storable (c : Configuration) : Prop where
  graph : c.graph.Storable
  filled : c.graph.nodes ≠ []
  cycles : 0 < c.cycles

theorem of_ofValue {raw : Value} {c : Configuration} (done : ofValue raw = .ok c) :
    ∃ (entries : Params) (cycles : Int), raw = .object entries ∧
      readSettings entries = .ok c.settings ∧
      Layout.ofRecords ((entries.get "graph").orElse (.object [])) = .ok c.graph ∧
      c.graph.nodes ≠ [] ∧ (entries.getD "cycles" (.int defaultCycles)).toInt = .ok cycles ∧
      0 < cycles ∧ c.cycles = cycles.toNat := by
  rw [ofValue_eq] at done
  obtain ⟨entries, listed, done⟩ := of_bind_eq_ok done
  obtain ⟨settings, set, done⟩ := of_bind_eq_ok done
  obtain ⟨whole, object, done⟩ := of_bind_eq_ok done
  obtain ⟨graph, read, made⟩ := of_bind_eq_ok done
  clear done
  cases Value.asObject_eq_ok_iff.mp object
  cases listed
  split at made
  · cases made
  · rename_i filled
    obtain ⟨cycles, counted, made⟩ := of_bind_eq_ok made
    split at made
    · cases made
    · rename_i positive
      cases made
      exact ⟨entries, cycles, rfl, set, read, by simpa using filled, counted, by omega, rfl⟩

theorem storable_of_ofValue {raw : Value} {c : Configuration} (done : ofValue raw = .ok c) :
    c.Storable := by
  obtain ⟨entries, cycles, -, -, read, filled, -, positive, same⟩ := of_ofValue done
  exact ⟨Layout.storable_of_ofRecords read, filled, by omega⟩

theorem ofValue_toValue {c : Configuration} (storable : c.Storable) :
    ofValue c.toValue = .ok c := by
  obtain ⟨settings, graph, cycles⟩ := c
  have filled : graph.nodes.isEmpty = false := by simpa using storable.filled
  have some : 0 < cycles := storable.cycles
  have positive : ¬ (cycles : Int) ≤ 0 := by omega
  have spec : ofValue (toValue ⟨settings, graph, cycles⟩) =
      Settings.ofInts settings.sampleRate settings.bufferSize >>= fun settings =>
      Layout.ofRecords (graph.toRecords.orElse (.object [])) >>= fun graph =>
      if graph.nodes.isEmpty then .error .noNodes
      else if (cycles : Int) ≤ 0 then .error .cyclesNotPositive
        else .ok ⟨settings, graph, (cycles : Int).toNat⟩ := by
    rw [ofValue_eq]
    rfl
  have given : graph.toRecords.isGiven = true := by
    rfl
  rw [spec, Value.orElse_of_isGiven given, Settings.ofInts_of_settings,
    Layout.ofRecords_toRecords storable.graph]
  show (if graph.nodes.isEmpty then _ else if (cycles : Int) ≤ 0 then _ else _) = _
  rw [filled, if_neg Bool.false_ne_true, if_neg positive]
  rfl

end Configuration

end Flowgraph
