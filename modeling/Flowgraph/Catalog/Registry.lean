import Flowgraph.Catalog.Draft

/-!
# The catalog

Block types indexed by id and by display name, in order of registration, and
the groups they are shown in.  A frozen catalog refuses every change.
-/

namespace Flowgraph

open Block

structure Catalog.Group where
  id : String
  name : String
  order : Int
deriving DecidableEq, Repr

/-- Block types by id and by name, and their groups. -/
structure Catalog where
  byId : List (String × Descriptor)
  byName : List (String × Descriptor)
  groups : List (String × Catalog.Group)
  frozen : Bool

namespace Catalog

def empty : Catalog := ⟨[], [], [], false⟩

/-- What is offered for registration. -/
inductive Offer where
  | draft (d : Draft)
  | plain (p : Plain)

/-- The name of an offer, as far as a frozen catalog looks for one. -/
def Offer.name : Offer → Value
  | draft d =>
    match d.name with
    | some name => if name = "" then .null else .text name
    | none => .null
  | plain p => p.entries.get "name"

def Offer.toDraft : Offer → Except Fault Draft
  | draft d => .ok d
  | plain p => p.draft

/-- The block type of an offer, if the catalog takes it. -/
def accept (c : Catalog) (offer : Offer) : Except Fault Descriptor := do
  if c.frozen then throw (.frozenRegister offer.name.inFull)
  let draft ← offer.toDraft
  let (profile, handler) ← draft.complete
  match handler with
  | .other _ => throw (.handlerNotCallable profile.id)
  | .function process =>
    if (c.byName.lookup profile.name).isSome then throw (.nameTaken profile.name)
    if (c.byId.lookup profile.id).isSome then throw (.idTaken profile.id)
    return ⟨profile, process⟩

def add (c : Catalog) (d : Descriptor) : Catalog :=
  { c with byId := c.byId ++ [(d.id, d)], byName := c.byName ++ [(d.name, d)] }

def register (c : Catalog) (offer : Offer) : Except Fault (Catalog × Descriptor) :=
  match c.accept offer with
  | .error fault => .error fault
  | .ok d => .ok (c.add d, d)

def writeGroup (groups : List (String × Group)) (g : Group) : List (String × Group) :=
  match groups with
  | [] => [(g.id, g)]
  | (k, h) :: rest => if k = g.id then (k, g) :: rest else (k, h) :: writeGroup rest g

def defineGroup (c : Catalog) (id name : String) (order : Value) : Except Fault Catalog :=
  if c.frozen then .error .frozenGroup
  else
    match order.toInt with
    | .error fault => .error fault
    | .ok n => .ok { c with groups := writeGroup c.groups ⟨id, name, n⟩ }

def freeze (c : Catalog) : Catalog :=
  { c with frozen := true }

/-! ## Lookup -/

def get? (c : Catalog) (id : String) : Option Descriptor :=
  c.byId.lookup id

def getByName? (c : Catalog) (name : String) : Option Descriptor :=
  c.byName.lookup name

/-- The block type with an id or else a display name. -/
def resolve (c : Catalog) (blockType : String) : Option Descriptor :=
  (c.get? blockType).or (c.getByName? blockType)

def descriptors (c : Catalog) : List Descriptor :=
  c.byId.map (·.2)

/-! ## Views of one block type -/

/-- Declared signals; an unknown type takes and gives real samples. -/
def signalsFor (c : Catalog) (blockType : String) : Signals :=
  match c.resolve blockType with
  | some d => d.signals
  | none => .declared ⟨some .real, some .real⟩

/-- Whether a block type is known to take nothing. -/
def isGenerator (c : Catalog) (blockType : String) : Except Fault Bool :=
  match c.resolve blockType with
  | some d => d.isGenerator
  | none => .ok false

def isSink (c : Catalog) (blockType : String) : Except Fault Bool :=
  match c.resolve blockType with
  | some d => d.isSink
  | none => .ok false

def defaultsOf (c : Catalog) (blockType : String) : Params :=
  ((c.resolve blockType).map (·.defaults)).getD []

def hintsOf (c : Catalog) (blockType : String) : List Hint :=
  ((c.resolve blockType).map (·.hints)).getD []

def validator? (c : Catalog) (blockType : String) : Option (Handler Validator) :=
  (c.resolve blockType).bind (·.validate)

def process? (c : Catalog) (blockType : String) : Option Transfer :=
  (c.resolve blockType).map (·.process)

def visualizationOf (c : Catalog) (blockType : String) : Value :=
  ((c.resolve blockType).map (·.visualization)).getD .null

/-- What is wrong with the parameters of a node; an unknown type accepts all. -/
def checkParams (c : Catalog) (blockType : String) (params : Params) : Except Fault (List String) :=
  match c.resolve blockType with
  | some d => d.check params
  | none => .ok []

/-- What is wrong with a value that should hold parameters; it is only read if someone looks. -/
def checkValue (c : Catalog) (blockType : String) (v : Value) : Except Fault (List String) :=
  match c.validator? blockType with
  | none => .ok []
  | some _ => do
    let params ← (v.orElse (.object [])).toParams
    c.checkParams blockType params

/-! ## Views of the whole catalog -/

def tabulate {β : Type} (c : Catalog) (part : Descriptor → β) : List (String × β) :=
  c.descriptors.map fun d => (d.id, part d)

def names (c : Catalog) : List (String × String) :=
  c.tabulate (·.name)

def signalTable (c : Catalog) : List (String × Signals) :=
  c.tabulate (·.signals)

def defaultsTable (c : Catalog) : List (String × Params) :=
  c.tabulate (·.defaults)

def generatorTypes (c : Catalog) : Except Fault (List String) := do
  let generators ← c.descriptors.filterM (·.isGenerator)
  return generators.map (·.id)

def visualizationTypes (c : Catalog) : List String :=
  (c.descriptors.filter (·.visualization.isGiven)).map (·.id)

/-- Block types of a group by their order in it, ties in order of registration. -/
def members (c : Catalog) (group : String) : List Descriptor :=
  (c.descriptors.filter (·.group = group)).mergeSort fun a b => decide (a.groupOrder ≤ b.groupOrder)

/-- Groups by their order, ties in order of definition, each with its block types. -/
def groupView (c : Catalog) : List (Group × List Descriptor) :=
  ((c.groups.map (·.2)).mergeSort fun a b => decide (a.order ≤ b.order)).map fun g =>
    (g, c.members g.id)

end Catalog

end Flowgraph
