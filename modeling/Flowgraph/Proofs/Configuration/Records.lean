import Flowgraph.Configuration.Basic

/-!
# Reading graph records

What reading a record comes to, one equation for each kind of record.
-/

namespace Flowgraph

namespace Value

theorem asObject_eq_ok_iff {v : Value} {entries : Params} :
    v.asObject = .ok entries ↔ v = .object entries := by
  cases v <;> simp [asObject]

theorem toText_of_isWritable {v : Value} (written : v.isWritable = true) :
    v.toText = .ok v.inFull :=
  if_pos written

theorem toText_int {n : Int} (short : Number.isWritable n = true) :
    (Value.int n).toText = .ok (toString n) :=
  toText_of_isWritable (v := .int n) short

theorem named_of_isWritable {v : Value} (written : v.isWritable = true) (cause : String → Fault) :
    v.named cause = cause v.inFull := by
  rw [named, toText_of_isWritable written]

theorem eq_inFull_of_toText {v : Value} {s : String} (done : v.toText = .ok s) : s = v.inFull := by
  unfold toText at done
  split at done
  · exact (Except.ok.inj done).symm
  · cases done

end Value

namespace Layout

theorem optionalText_of_ne_null {v : Value} (given : v ≠ .null) :
    optionalText v = v.toText.map some := by
  cases v with
  | null => exact absurd rfl given
  | _ => unfold optionalText; rfl

def typeField (item : Params) : Value :=
  (blockFields item).getD "blockType" ((blockFields item).get "block_type")

def paramsField (item : Params) : Value :=
  ((blockFields item).get "params").orElse (.object [])

theorem readNode_object (index : Nat) (item : Params) :
    readNode index (.object item) =
      if !(item.get "id").isGiven then .error (.nodeWithoutId index)
      else if !(typeField item).isGiven then
        .error ((item.get "id").named (.nodeWithoutType index))
      else (item.get "id").toText >>= fun id => (typeField item).toText >>= fun blockType =>
        (paramsField item).toParams >>= fun params =>
        (optionalText ((blockFields item).get "label")).map fun label =>
          ⟨id, blockType, params, label⟩ := by
  show (if !(item.get "id").isGiven then _ else _) = _
  split
  · rfl
  · show (if !(typeField item).isGiven then _ else _) = _
    split
    · rfl
    · refine bind_congr fun id => bind_congr fun blockType => bind_congr fun params => ?_
      cases optionalText ((blockFields item).get "label") <;> rfl

/-- What an edge record says, if all of it can be written as text. -/
def readFields (index : Nat) (item : Params) : Except Fault Graph.Edge :=
  ((item.get "id").orElse (.text s!"e{index}")).toText >>= fun id =>
  (item.get "source").toText >>= fun source => (item.get "target").toText >>= fun target =>
  optionalText (item.getD "sourceHandle" (item.get "source_handle")) >>= fun sourceHandle =>
  optionalText (item.getD "targetHandle" (item.get "target_handle")) >>= fun targetHandle =>
    .ok ⟨id, source, target, sourceHandle, targetHandle⟩

theorem readEdge_object (index : Nat) (item : Params) :
    readEdge index (.object item) =
      if !(item.get "source").isGiven then .error (.edgeWithout index "source")
      else if !(item.get "target").isGiven then .error (.edgeWithout index "target")
      else readFields index item := by
  show (if !(item.get "source").isGiven then _ else _) = _
  split
  · rfl
  · show (if !(item.get "target").isGiven then _ else _) = _
    split <;> rfl

theorem readViewport_of_ne_null {v : Value} (given : v ≠ .null) :
    readViewport v = v.toParams.map some := by
  cases v with
  | null => exact absurd rfl given
  | _ => rfl

theorem ofRecords_object (data : Params) :
    ofRecords (.object data) =
      itemsUnder data "nodes" >>= fun items => readAll readNode 0 items >>= fun nodes =>
      itemsUnder data "edges" >>= fun items => readAll readEdge 0 items >>= fun edges =>
      readViewport (data.get "viewport") >>= fun viewport => .ok ⟨nodes, edges, viewport⟩ := rfl

end Layout

namespace Configuration

theorem ofValue_eq (raw : Value) :
    ofValue raw =
      raw.toParams >>= fun entries => readSettings entries >>= fun settings =>
      raw.asObject >>= fun entries =>
      Layout.ofRecords ((entries.get "graph").orElse (.object [])) >>= fun graph =>
      if graph.nodes.isEmpty then .error .noNodes
      else (entries.getD "cycles" (.int defaultCycles)).toInt >>= fun cycles =>
        if cycles ≤ 0 then .error .cyclesNotPositive
        else .ok ⟨settings, graph, cycles.toNat⟩ := by
  unfold ofValue
  refine bind_congr fun entries => bind_congr fun settings => bind_congr fun entries =>
    bind_congr fun graph => ?_
  split
  · rfl
  · refine bind_congr fun cycles => ?_
    split <;> rfl

end Configuration

end Flowgraph
