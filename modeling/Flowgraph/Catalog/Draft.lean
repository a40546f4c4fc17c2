import Flowgraph.Block.Descriptor
import Flowgraph.Text.Case

/-!
# Drafts

A block type before registration: required fields may be missing, and the
process may be something that cannot be called.  A draft is made directly or
from a plain record.
-/

namespace Flowgraph

namespace Catalog

open Block

/-- The contract of a block type that has not been checked yet. -/
structure Draft where
  id : Option String
  name : Option String
  icon : Option String
  group : Option String
  signals : Option Signals
  process : Option (Handler Transfer)
  description : String := ""
  groupOrder : Int := 0
  defaults : Params := []
  hints : List Hint := []
  validate : Option (Handler Validator) := none
  newRecord : Option (Handler (Option Record)) := none
  visualization : Value := .null

/-- A plain record of a block type; its functions stand beside its values. -/
structure Plain where
  entries : Params
  process : Option (Handler Transfer)
  validate : Option (Handler Validator)
  newRecord : Option (Handler (Option Record))

def required {β : Type} (block field : String) : Option β → Except Fault β
  | some b => .ok b
  | none => .error (.missingField block field)

namespace Draft

def reportedId (d : Draft) : String :=
  match d.id with
  | none => "unknown"
  | some id => if id = "" then "unknown" else id

def complete (d : Draft) : Except Fault (Profile × Handler Transfer) := do
  let id ← required d.reportedId "id" d.id
  let name ← required d.reportedId "name" d.name
  let icon ← required d.reportedId "icon" d.icon
  let group ← required d.reportedId "group" d.group
  let signals ← required d.reportedId "signals" d.signals
  let process ← required d.reportedId "process" d.process
  return ({
    id, name, icon, group, signals
    description := d.description
    groupOrder := d.groupOrder
    defaults := d.defaults
    hints := d.hints
    validate := d.validate
    newRecord := d.newRecord
    visualization := d.visualization }, process)

end Draft

/-- The signal type a value names, in any letter case; null names none. -/
def readSignal : Value → Except Fault (Option SignalType)
  | .null => .ok none
  | v => do
    let text := Text.lower (← v.toText)
    match SignalType.ofName? text with
    | some type => .ok (some type)
    | none => .error (.unknownSignal text)

namespace Plain

/-- The value under a key, or under its other spelling if the key is absent. -/
def either (entries : Params) (key other : String) : Value :=
  entries.getD key (entries.get other)

/-- The fault of a record without a field, which names the block if its id can be written. -/
def lacks (p : Plain) (field : String) : Fault :=
  (p.entries.getD "id" (.text "unknown")).named fun block => .missingField block field

def requiredValue (p : Plain) (field : String) : Except Fault Value :=
  match p.entries.get field with
  | .null => .error (p.lacks field)
  | v => .ok v

/-- The signals a value describes; a value that is no record is kept as it is. -/
def readSignals (v : Value) : Except Fault Signals :=
  match v with
  | .object entries => do
    let input ← readSignal (Params.get entries "input")
    let output ← readSignal (Params.get entries "output")
    return .declared ⟨input, output⟩
  | other => return .other other

def draft (p : Plain) : Except Fault Draft := do
  let id ← p.requiredValue "id"
  let name ← p.requiredValue "name"
  let icon ← p.requiredValue "icon"
  let group ← p.requiredValue "group"
  let signals ← p.requiredValue "signals"
  let process ←
    match p.process with
    | some process => pure process
    | none => throw (p.lacks "process")
  let signals ← readSignals signals
  let id ← id.toText
  let title ← name.toText
  let icon ← icon.toText
  let group ← group.toText
  let description ← ((p.entries.get "description").orElse name).toText
  let groupOrder ← ((either p.entries "group_order" "groupOrder").orElse (.int 0)).toInt
  let defaults ← ((either p.entries "default_params" "defaultParams").orElse (.object [])).toParams
  let hints ← ((either p.entries "param_fields" "paramFields").orElse (.list [])).elements
  return {
    id := some id
    name := some title
    icon := some icon
    group := some group
    signals := some signals
    process := some process
    description, groupOrder, defaults
    hints := hints.map .other
    validate := p.validate
    newRecord := p.newRecord
    visualization := either p.entries "visualization_type" "visualizationType" }

end Plain

end Catalog

end Flowgraph
