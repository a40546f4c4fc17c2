import Flowgraph.Number.Exact
import Flowgraph.Text.Case
import Flowgraph.Value.Conversion

/-!
# Diagnostics

The level of the program's log and the tracing of single nodes.  Tracing has a
level of its own, which follows the level of the log until it is set.
-/

namespace Flowgraph

/-- State of the log; a level of zero is unset. -/
structure Diagnostics where
  level : Int
  traceLevel : Int
  tracing : Bool
  handlers : Nat
deriving DecidableEq, Repr

namespace Diagnostics

def fresh : Diagnostics := ⟨0, 0, false, 0⟩

def levels : List (String × Int) := [
  ("CRITICAL", 50),
  ("FATAL", 50),
  ("ERROR", 40),
  ("WARN", 30),
  ("WARNING", 30),
  ("INFO", 20),
  ("DEBUG", 10),
  ("NOTSET", 0)]

def standardLevel : Int := 30

def debugLevel : Int := 10

def readLevel : Value → Except Fault Int
  | .text name =>
    match levels.lookup (Text.upper name) with
    | some level => .ok level
    | none => .error (.unknownLevel name)
  | .int n => .ok n
  | .bool b => .ok (if b then 1 else 0)
  | v => .error (if v.isWritable then .levelKind v.shown else .integerTooLong)

/-- Set the level and attach the one handler. -/
def configure (d : Diagnostics) (level : Value) : Except Fault Diagnostics := do
  let level ← readLevel level
  return { d with level, handlers := 1 }

def effectiveLevel (d : Diagnostics) : Int :=
  if d.traceLevel ≠ 0 then d.traceLevel
  else if d.level ≠ 0 then d.level
  else standardLevel

/-- Switch tracing on or off; switched on, its messages pass. -/
def enable (d : Diagnostics) (flag : Value) : Diagnostics :=
  let d := { d with tracing := flag.isGiven }
  if d.tracing && debugLevel < d.effectiveLevel then { d with traceLevel := debugLevel } else d

def writesTrace (d : Diagnostics) : Bool :=
  d.tracing && d.effectiveLevel ≤ debugLevel

/-- The message of one node; one that cannot be written is dropped. -/
def trace (d : Diagnostics) (cycle node block seconds : Value) : Except Fault (List String) := do
  if !d.tracing then return []
  let elapsed ← seconds.factor
  if !d.writesTrace then return []
  match cycle.number? with
  | none => return []
  | some cycle =>
    let cycle ← cycle.toInt
    match Value.toText (.int cycle), node.toText, block.toText with
    | .ok cycle, .ok node, .ok block =>
      return [s!"cycle={cycle} node={node} block={block} " ++
        s!"elapsed_ms={Number.fixed (elapsed * 1000) 3}"]
    | _, _, _ => return []

end Diagnostics

end Flowgraph
