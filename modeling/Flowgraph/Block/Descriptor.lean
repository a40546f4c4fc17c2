import Flowgraph.Block.Transfer
import Flowgraph.Block.Validation

/-!
# Block descriptors

The static contract of a block type: what it is called, which signals it takes
and gives, its parameters, and the functions that check and process them.
-/

namespace Flowgraph

namespace Block

/-- Declared signals of a block; a missing side has none. -/
structure Signature where
  input : Option SignalType
  output : Option SignalType
deriving DecidableEq, Repr

/-- What a block type gives as its signals: a signature, or a value that has no sides. -/
inductive Signals where
  | declared (s : Signature)
  | other (v : Value)

namespace Signals

def input : Signals → Except Fault (Option SignalType)
  | declared s => .ok s.input
  | other v => .error (.noAttribute v.kind "input")

def output : Signals → Except Fault (Option SignalType)
  | declared s => .ok s.output
  | other v => .error (.noAttribute v.kind "output")

end Signals

structure Field where
  name : String
  label : String
  kind : String := "number"
  default : Value := .null
  minimum : Value := .null
  maximum : Value := .null
  step : Value := .null
  options : List Value := []

/-- An entry of the parameter hints; hints of an unknown form are carried along. -/
inductive Hint where
  | field (f : Field)
  | other (v : Value)

/-- Something that should be a function and may be another value. -/
inductive Handler (φ : Type) where
  | function (f : φ)
  | other (v : Value)

def Handler.call? {φ : Type} : Handler φ → Except Fault φ
  | .function f => .ok f
  | .other v => .error (.notCallable v.kind)

/-- Everything about a block type but its process. -/
structure Profile where
  id : String
  name : String
  icon : String
  group : String
  signals : Signals
  description : String := ""
  groupOrder : Int := 0
  defaults : Params := []
  hints : List Hint := []
  validate : Option (Handler Validator) := none
  newRecord : Option (Handler (Option Record)) := none
  visualization : Value := .null

structure Descriptor extends Profile where
  process : Transfer

namespace Profile

def isGenerator (p : Profile) : Except Fault Bool :=
  p.signals.input.map Option.isNone

def isSink (p : Profile) : Except Fault Bool :=
  p.signals.output.map Option.isNone

/-- The text that describes the block, its name if there is none. -/
def summary (p : Profile) : String :=
  if p.description = "" then p.name else p.description

def check (p : Profile) (params : Params) : Except Fault (List String) :=
  match p.validate with
  | none => .ok []
  | some handler => do
    let validator ← handler.call?
    validator (p.defaults.update params)

def initialRecord (p : Profile) : Except Fault (Option Record) :=
  match p.newRecord with
  | none => .ok none
  | some handler => handler.call?

end Profile

end Block

end Flowgraph
