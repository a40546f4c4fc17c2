import Flowgraph.Number.Literal
import Flowgraph.Text.Quoted
import Flowgraph.Value

/-!
# Reading values

How a dynamic value is read as an integer, a real, a text or a mapping.
-/

namespace Flowgraph

namespace Value

/-- The number a value stands for; booleans count as zero and one. -/
def number? : Value → Option Number
  | bool b => some (.int (if b then 1 else 0))
  | int n => some (.int n)
  | float x => some (.float x)
  | _ => none

def ofKey : Key → Value
  | .null => null
  | .bool b => bool b
  | .int n => int n
  | .float x => float x
  | .text s => text s

def toKey : Value → Except Fault Key
  | null => .ok .null
  | bool b => .ok (.bool b)
  | int n => .ok (.int n)
  | float x => .ok (.float x)
  | text s => .ok (.text s)
  | v => .error (.unhashable v.kind)

def ofNumber : Number → Value
  | .int n => .int n
  | .float x => .float x

/-- A value as a factor of a product with a double; text is not read. -/
def factor (v : Value) : Except Fault Float :=
  match v.number? with
  | some n => n.toFloat
  | none => .error (.notMultipliable v.kind)

/-- A value as an integer: numbers lose their fraction, text is read as a numeral. -/
def toInt : Value → Except Fault Int
  | text s => Number.readInt s
  | v =>
    match v.number? with
    | some n => n.toInt
    | none => .error (.notInteger v.kind)

/-- A value as a double: integers are rounded, text is read as a numeral. -/
def toFloat : Value → Except Fault Float
  | text s => Number.readFloat s
  | v =>
    match v.number? with
    | some n => n.toFloat
    | none => .error (.notReal v.kind)

/-- A value as a number without reading text, for a relation named `relation` with a number. -/
def numberFor (relation : String) (other : String) (v : Value) : Except Fault Number :=
  match v.number? with
  | some n => .ok n
  | none => .error (.incomparable relation v.kind other)

def shownKey : Key → String
  | .null => "None"
  | .bool b => if b then "True" else "False"
  | .int n => toString n
  | .float x => Number.text x
  | .text s => Text.quoted s

mutual

/-- A value as it is shown inside a list or an object: texts are quoted. -/
def shown : Value → String
  | null => "None"
  | bool true => "True"
  | bool false => "False"
  | int n => toString n
  | float x => Number.text x
  | text s => Text.quoted s
  | list items => "[" ++ ", ".intercalate (shownItems items) ++ "]"
  | object entries => "\x7b" ++ ", ".intercalate (shownEntries entries) ++ "\x7d"

def shownItems : List Value → List String
  | [] => []
  | v :: rest => shown v :: shownItems rest

def shownEntries : List (Key × Value) → List String
  | [] => []
  | (key, v) :: rest => (shownKey key ++ ": " ++ shown v) :: shownEntries rest

end

mutual

/-- Whether every integer in a value can be written as a numeral. -/
def isWritable : Value → Bool
  | int n => Number.isWritable n
  | list items => areWritable items
  | object entries => entriesWritable entries
  | _ => true

def areWritable : List Value → Bool
  | [] => true
  | v :: rest => isWritable v && areWritable rest

def entriesWritable : List (Key × Value) → Bool
  | [] => true
  | (.int n, v) :: rest => Number.isWritable n && isWritable v && entriesWritable rest
  | (_, v) :: rest => isWritable v && entriesWritable rest

end

/-- A value as text, however long its integers are: texts stand for themselves. -/
def inFull : Value → String
  | text s => s
  | v => v.shown

/-- A value as text, if its integers can be written. -/
def toText (v : Value) : Except Fault String :=
  if v.isWritable then .ok v.inFull else .error .integerTooLong

/-- A fault that names a value, unless the value cannot be written. -/
def named (cause : String → Fault) (v : Value) : Fault :=
  match v.toText with
  | .ok shown => cause shown
  | .error fault => fault

def pair? (index : Nat) : Value → Except Fault (Key × Value)
  | list [key, value] => return (← key.toKey, value)
  | list items => .error (.pairLength index items.length)
  | text s =>
    match Text.characters s with
    | [key, value] => .ok (.text key, .text value)
    | cs => .error (.pairLength index cs.length)
  | object entries =>
    match entries with
    | [(key, _), (value, _)] => .ok (key, ofKey value)
    | _ => .error (.pairLength index entries.length)
  | _ => .error (.pairExpected index)

/-- The entries of a list of pairs, numbered from `index`. -/
def pairs (index : Nat) : List Value → Except Fault (List (Key × Value))
  | [] => .ok []
  | v :: rest => do
    let entry ← pair? index v
    let more ← pairs (index + 1) rest
    return entry :: more

def toParams : Value → Except Fault Params
  | object entries => .ok entries
  | list items => return Params.ofEntries (← pairs 0 items)
  | text s => return Params.ofEntries (← pairs 0 ((Text.characters s).map text))
  | v => .error (.notIterable v.kind)

/-- The entries of an object; any other value lacks the attribute `get`. -/
def asObject (v : Value) : Except Fault Params :=
  match v with
  | object entries => .ok entries
  | _ => .error (.noAttribute v.kind "get")

def elements : Value → Except Fault (List Value)
  | list items => .ok items
  | text s => .ok ((Text.characters s).map text)
  | object entries => .ok (entries.map fun entry => ofKey entry.1)
  | v => .error (.notIterable v.kind)

end Value

end Flowgraph
