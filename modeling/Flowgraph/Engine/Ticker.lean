import Flowgraph.Engine.Cycle

/-!
# Running cycles

A ticker runs cycles one after another until a count is reached, the engine no
longer runs or the host asks to stop.  The host is called back after each cycle
and may stop the engine or change its own mind.
-/

namespace Flowgraph

/-- Who drives an engine: when to stop, and what to do after each cycle. -/
structure Host (σ : Type) where
  stopRequested : σ → Bool
  onCycle : Nat → List SinkOutput → σ → Engine → σ × Engine

structure Run (σ : Type) where
  engine : Engine
  host : σ
  completed : Nat
  fault : Option Fault
  notices : List Notice

namespace Ticker

/-- Run up to `remaining` further cycles after `index` completed ones. -/
def ticks {σ : Type} (machine : Machine) (host : Host σ) :
    (remaining index : Nat) → Engine → σ → Run σ
  | 0, index, e, s => ⟨e, s, index, none, []⟩
  | remaining + 1, index, e, s =>
    if host.stopRequested s then ⟨e, s, index, none, []⟩
    else
      match e.cycle machine with
      | ⟨e, .error fault, notices⟩ => ⟨e, s, index, some fault, notices⟩
      | ⟨e, .ok none, notices⟩ => ⟨e, s, index, none, notices⟩
      | ⟨e, .ok (some outputs), notices⟩ =>
        let (s, e) := host.onCycle index outputs s e
        let run := ticks machine host remaining (index + 1) e s
        { run with notices := notices ++ run.notices }

/-- Run up to `count` cycles; a negative count means none. -/
def run {σ : Type} (machine : Machine) (host : Host σ) (count : Int) (e : Engine) (s : σ) : Run σ :=
  ticks machine host count.toNat 0 e s

/-- A host that collects the outputs of all cycles, the last one first, and never asks to stop. -/
def collector : Host (List (List SinkOutput)) where
  stopRequested _ := false
  onCycle _ outputs seen e := (outputs :: seen, e)

end Ticker

end Flowgraph
