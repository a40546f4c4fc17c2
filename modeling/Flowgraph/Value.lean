import Flowgraph.Number.Basic

/-!
# Parameter values

The dynamic values that block parameters, configuration records and viewports
are made of.  An object keeps its entries in the order in which their keys were
first written; a later entry with an equal key replaces the value and leaves
the key as it was.
-/

namespace Flowgraph

/-- What an entry of an object is stored under; documents only have texts. -/
inductive Key where
  | null
  | bool (b : Bool)
  | int (n : Int)
  | float (x : Float)
  | text (s : String)
deriving Inhabited, Repr

instance : Coe String Key := ⟨.text⟩

namespace Key

/-- A number as a key. -/
def ofNumber : Number → Key
  | .int n => int n
  | .float x => float x

/-- The number a key stands for; booleans count as zero and one. -/
def number? : Key → Option Number
  | bool b => some (.int (if b then 1 else 0))
  | int n => some (.int n)
  | float x => some (.float x)
  | _ => none

/-- Equality by value: numbers are compared as such, whatever their representation. -/
def same : Key → Key → Bool
  | null, null => true
  | text s, text t => s = t
  | a, b =>
    match a.number?, b.number? with
    | some m, some n => m == n
    | _, _ => false

instance : BEq Key := ⟨same⟩

/-- Whether a key is the double that is no number. -/
def isNaN : Key → Bool
  | float x => x.isNaN
  | _ => false

/-- Whether two keys stand for one entry: they are equal, or neither is a number. -/
def meets (a b : Key) : Bool :=
  a.same b || (a.isNaN && b.isNaN)

@[simp]
theorem meets_text (s t : String) : (text s).meets (text t) = decide (s = t) := by
  simp [meets, same, isNaN]

end Key

inductive Value where
  | null
  | bool (b : Bool)
  | int (n : Int)
  | float (x : Float)
  | text (s : String)
  | list (items : List Value)
  | object (entries : List (Key × Value))
deriving Inhabited, Repr

/-- Named parameters, in order of first writing. -/
abbrev Params := List (Key × Value)

namespace Params

def get? : Params → String → Option Value
  | [], _ => none
  | (.text k, v) :: rest, name => if k = name then some v else get? rest name
  | _ :: rest, name => get? rest name

def get (params : Params) (name : String) : Value :=
  (params.get? name).getD .null

def getD (params : Params) (name : String) (fallback : Value) : Value :=
  (params.get? name).getD fallback

/-- Write one entry: in place if the key is known, else at the end. -/
def insert : Params → Key → Value → Params
  | [], key, value => [(key, value)]
  | (k, v) :: rest, key, value =>
    if k.meets key then (k, value) :: rest else (k, v) :: insert rest key value

/-- Overlay `params` with `more`, entry by entry. -/
def update (params more : Params) : Params :=
  more.foldl (fun acc entry => acc.insert entry.1 entry.2) params

def ofEntries (entries : List (Key × Value)) : Params :=
  update [] entries

end Params

namespace Value

def kind : Value → String
  | null => "NoneType"
  | bool _ => "bool"
  | int _ => "int"
  | float _ => "float"
  | text _ => "str"
  | list _ => "list"
  | object _ => "dict"

/-- Null, false, zero and empty values do not count as given. -/
def isGiven : Value → Bool
  | null => false
  | bool b => b
  | int n => n ≠ 0
  | float x => !(x == 0)
  | text s => s ≠ ""
  | list items => !items.isEmpty
  | object entries => !entries.isEmpty

/-- `v`, or `fallback` when `v` is null, false, zero or empty. -/
def orElse (v fallback : Value) : Value :=
  if v.isGiven then v else fallback

def entries? : Value → Option Params
  | object entries => some entries
  | _ => none

end Value

end Flowgraph
