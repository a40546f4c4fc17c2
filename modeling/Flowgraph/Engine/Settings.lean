import Flowgraph.Value.Conversion

/-!
# Engine settings

Sample rate and buffer size shared by all nodes; both are positive.
-/

namespace Flowgraph

structure Settings where
  sampleRate : Nat
  bufferSize : Nat
  sampleRate_pos : 0 < sampleRate
  bufferSize_pos : 0 < bufferSize
deriving DecidableEq, Repr

namespace Settings

def standard : Settings :=
  ⟨48000, 1024, by decide, by decide⟩

/-- Settings of given integers, the sample rate checked first. -/
def ofInts (rate size : Int) : Except Fault Settings :=
  if hr : rate ≤ 0 then .error .sampleRateNotPositive
  else if hs : size ≤ 0 then .error .bufferSizeNotPositive
  else .ok ⟨rate.toNat, size.toNat, by omega, by omega⟩

def ofValues (rate size : Value) : Except Fault Settings := do
  let rate ← rate.toInt
  let size ← size.toInt
  ofInts rate size

def orCurrent (v : Value) (current : Nat) : Value :=
  match v with
  | .null => .int current
  | v => v

/-- Overlay settings with the entries of a mapping, in either spelling of their keys. -/
def overlay (current : Settings) (entries : Params) : Except Fault Settings :=
  ofValues
    (orCurrent (entries.getD "sample_rate" (entries.get "sampleRate")) current.sampleRate)
    (orCurrent (entries.getD "buffer_size" (entries.get "bufferSize")) current.bufferSize)

inductive Change where
  | keep
  | replace (s : Settings)
  | overlay (v : Value)

def Change.apply (current : Settings) : Change → Except Fault Settings
  | keep => .ok current
  | replace s => .ok s
  | overlay v => do
    let entries ← v.asObject
    current.overlay entries

end Settings

end Flowgraph
