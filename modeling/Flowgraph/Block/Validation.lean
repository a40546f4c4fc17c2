import Flowgraph.Spectrum.PowerOfTwo
import Flowgraph.Value.Conversion

/-!
# Checking parameters

A validator looks at the parameters of a node, merged over the defaults of its
block, and lists what is wrong with them.  Looking at a value can itself fail:
an integer beyond the doubles has no sign as a double, and an infinity is no
order.
-/

namespace Flowgraph

namespace Block

abbrev Validator := Params → Except Fault (List String)

namespace Validator

def require (message : String) (test : Except Fault Bool) : Except Fault (Option String) :=
  test.map fun ok => if ok then none else some message

def collect : List (Except Fault (Option String)) → Except Fault (List String)
  | [] => .ok []
  | check :: rest => do
    let complaint ← check
    let more ← collect rest
    return complaint.toList ++ more

/-- Whether a value reads as a positive number; unreadable values are not positive. -/
def isPositive (v : Value) : Except Fault Bool :=
  match v.toFloat with
  | .ok x => .ok (decide (0 < x))
  | .error .integerTooLarge => .error .integerTooLarge
  | .error _ => .ok false

def maxOrder : Int := 1024

/-- Whether a value is a whole number that can be the order of a filter. -/
def isOrder (v : Value) : Except Fault Bool :=
  match v.toInt with
  | .ok n =>
    .ok (1 ≤ n && n ≤ maxOrder &&
      match v.number? with
      | some x => x == .int n
      | none => false)
  | .error .infiniteInteger => .error .infiniteInteger
  | .error _ => .ok false

def isOneOf (texts : List String) : Value → Bool
  | .text s => texts.contains s
  | _ => false

def isBool : Value → Bool
  | .bool _ => true
  | _ => false

def order (label : String) (params : Params) : Except Fault (Option String) :=
  require s!"{label} must be an integer between 1 and {maxOrder}" (isOrder (params.get "order"))

def positive (label key : String) (params : Params) : Except Fault (Option String) :=
  require s!"{label} must be positive" (isPositive (params.get key))

def fir : Validator := fun params => collect [
  order "Filter order" params,
  positive "Cutoff frequency" "cutoff" params,
  require "Filter type must be 'lowpass' or 'highpass'"
    (.ok (isOneOf ["lowpass", "highpass"] (params.getD "filterType" (.text "lowpass"))))]

/-- Whether the lower cutoff stays below the upper one, where both are positive. -/
def cutoffsOrdered (low high : Value) : Except Fault Bool := do
  if !(← isPositive low) then return true
  if !(← isPositive high) then return true
  let low ← low.toFloat
  let high ← high.toFloat
  return !(decide (high ≤ low))

def bandpass : Validator := fun params => collect [
  order "Filter order" params,
  positive "Lower cutoff frequency" "lowCutoff" params,
  positive "Upper cutoff frequency" "highCutoff" params,
  require "Lower cutoff must be below the upper cutoff"
    (cutoffsOrdered (params.get "lowCutoff") (params.get "highCutoff"))]

def transformer : Validator := fun params => collect [order "Transformer order" params]

def goertzel : Validator := fun params => collect [
  positive "Target frequency" "targetFrequency" params,
  positive "Block size N" "N" params]

def generator : Validator := fun params => collect [
  positive "Frequency" "frequency" params,
  positive "Amplitude" "amplitude" params]

def inputSignal : Validator := fun params => do
  let complaints ← generator params
  let more ← collect [require "Signal type must be 'sine' or 'cosine'"
    (.ok (isOneOf ["sine", "cosine"] (params.getD "signalType" (.text "sine"))))]
  return complaints ++ more

def audioFile : Validator := fun params => collect [
  require "Parameter 'loop' must be a boolean" (.ok (((params.get? "loop").map isBool).getD true)),
  require "Parameter 'source' must be a SampleSource"
    (.ok (match params.get "source" with
      | .null => true
      | _ => false))]

def leastTransform : Int := 64

def largestTransform : Int := 16384

def transform : Validator := fun params => do
  let size := params.get "fftSize"
  if !(← Spectrum.isPowerOfTwoValue size) then return ["FFT size must be a power of two"]
  let n ← size.toInt
  if leastTransform ≤ n ∧ n ≤ largestTransform then return []
  return [s!"FFT size must be between {leastTransform} and {largestTransform}"]

def overlap (window overlap : Value) : Except Fault (Option String) :=
  match overlap.number? with
  | none => .ok (some "Overlap must be non-negative")
  | some n =>
    if n.lt (.int 0) then .ok (some "Overlap must be non-negative")
    else do
      if !(← isPositive window) then return none
      match window.number? with
      | none => throw (.incomparable ">=" overlap.kind window.kind)
      | some w =>
        return if w.le n then some "Overlap must be smaller than the window size" else none

def slidingTransform : Validator := fun params => collect [
  positive "Window size" "windowSize" params,
  overlap (params.get "windowSize") (params.get "overlap"),
  require "FFT size must be a power of two" (Spectrum.isPowerOfTwoValue (params.get "fftSize"))]

def phaseDetector : Validator := fun params => collect [
  positive "Reference frequency" "referenceFrequency" params]

/-- Running sums; a limit is only looked at when it is in force. -/
def integrator : Validator := fun params => collect [
  require "Parameter 'resetOnOverflow' must be a boolean"
    (.ok (isBool (params.getD "resetOnOverflow" (.bool false)))),
  if (params.get "resetOnOverflow").isGiven then
    require "Maximum value must be positive when overflow reset is enabled"
      (isPositive (params.get "maxValue"))
  else .ok none]

end Validator

end Block

end Flowgraph
