import Flowgraph.Fault
import Flowgraph.Number.Shortest

/-!
# Numbers

A number is an unbounded integer or a double.  Integers and doubles compare by
their exact values; a NaN compares with nothing.
-/

namespace Flowgraph

instance instNatCastFloat : NatCast Float := ⟨Float.ofNat⟩

instance instIntCastFloat : IntCast Float := ⟨Float.ofInt⟩

inductive Number where
  | int (n : Int)
  | float (x : Float)
deriving Inhabited, Repr

namespace Number

/-- The double nearest to an integer, unless that is infinite. -/
def floatOfInt (n : Int) : Except Fault Float :=
  let x := Float.ofInt n
  if x.isInf then .error .integerTooLarge else .ok x

/-- A double without its fractional part. -/
def intOfFloat (x : Float) : Except Fault Int :=
  match Exact.ofFloat? x with
  | some e => .ok e.truncate
  | none => if x.isNaN then .error .undefinedInteger else .error .infiniteInteger

def toFloat : Number → Except Fault Float
  | int n => floatOfInt n
  | float x => .ok x

def toInt : Number → Except Fault Int
  | int n => .ok n
  | float x => intOfFloat x

/-- Order of an integer and a double by exact value; `none` for NaN. -/
def compareFloat (n : Int) (x : Float) : Option Ordering :=
  match Exact.ofFloat? x with
  | some e => some (e.compareInt n).swap
  | none =>
    if x.isNaN then none
    else if x < 0 then some .gt
    else some .lt

def compare? : Number → Number → Option Ordering
  | int a, int b => some (compare a b)
  | int a, float b => compareFloat a b
  | float a, int b => (compareFloat b a).map Ordering.swap
  | float a, float b =>
    if a < b then some .lt
    else if b < a then some .gt
    else if a == b then some .eq
    else none

def lt (a b : Number) : Bool :=
  a.compare? b == some .lt

def le (a b : Number) : Bool :=
  a.compare? b == some .lt || a.compare? b == some .eq

def same (a b : Number) : Bool :=
  a.compare? b == some .eq

instance : BEq Number := ⟨same⟩

def toText : Number → String
  | int n => toString n
  | float x => text x

end Number

end Flowgraph
